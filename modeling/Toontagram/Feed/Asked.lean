import Toontagram.Document.Kept

/-!
# Nobody is sent what he has not asked for

A cartoon comes into a feed by two loops, each over what a query finds: the upload goes to the
fans of its author, the follow fetches the cartoons of the author. Both find what earlier
operations have left, perhaps long ago and perhaps only in part. Still a feed names nothing
but uploads of its owner and of authors that the owner once set out to follow.

`Call.Entitled` is what a call on its way has to respect, and `Rightful` what each stored
document does. They keep each other up in every run, whichever calls fail.
-/

namespace Toontagram

open Lib (DocWrite Fields Store run run_inv_of_forall)
open CartoonService (Upload)

/-- Who uploads which cartoon with the operation. -/
def Operation.posts : Operation → Option (Uid × DocID)
  | .action (.uploadCartoon (some me) u) => some (me, u.ref)
  | _ => none

/-- Who sets out to follow whom with the operation. -/
def Operation.asks : Operation → Option (Uid × Uid)
  | .action (.didTapButton (some me) (some _) _ user) =>
    if me = user.uid ∨ user.fan = true then none else some (me, user.uid)
  | .fan (some me) uid => some (me, uid)
  | _ => none

/-- Who sets out to follow does it on a device of his own. -/
theorem Operation.auth_of_asks {o : Operation} {v author : Uid} (h : o.asks = some (v, author)) :
    o.auth = some v := by
  unfold Operation.asks at h
  split at h
  next =>
    split at h
    next => cases h
    next => exact congrArg (Option.map Prod.fst) h
  next => exact congrArg (Option.map Prod.fst) h
  next => cases h

section entitled

variable (posts : Uid → DocID → Prop) (asks : Uid → Uid → Prop) (uses : Uid → Prop)

/-- The account may have the cartoon in its feed. -/
def Wanted (v : Uid) (x : DocID) : Prop := ∃ author, posts author x ∧ (v = author ∨ asks v author)

/-- A cartoon is the upload of its author, a fan has asked to be one, and a feed holds
what is wanted. -/
def Rightful (ref : DocRef) (data : Dictionary) : Prop :=
  match ref.collection with
  | .cartoon => ∀ author, data "uid" = some (.string author) → posts author ref.documentID
  | .userFan author => asks ref.documentID author
  | .userFeed v => Wanted posts asks v ref.documentID
  | _ => True

/-- On a device that `uses` are signed in on, the completion leads to no feed, or to that
of somebody who has asked for it. -/
def ScreenCompletion.Entitled : ScreenCompletion → Prop
  | .fanned _ user _ => ∀ me, uses me → asks me user.uid
  | _ => True

def Completion.Entitled : Completion → Prop
  | .screen c => c.Entitled asks uses
  | .fanUsers uid currentUid c => asks currentUid uid ∧ c.Entitled asks uses
  | .antiFanUser _ _ c => c.Entitled asks uses
  | .likeCartoon _ _ c => c.Entitled asks uses
  | .unLikeCartoon _ _ c => c.Entitled asks uses

/-- What the call and its closures will write respects who wants what. -/
def Call.Entitled (k : Call) : Prop :=
  match k.request with
  | .write w c => w.Keeps (Rightful posts asks) ∧ c.Entitled asks uses
  | .getDocuments q (.updateMainUserAfterFan uid didFan) => didFan = true →
    ∃ author, q = ⟨.cartoon, some ("uid", .string author)⟩ ∧ asks uid author
  | .getDocuments q (.updateMainUserAfterCartoon uid cartoonID) =>
    q = { collection := .userFan uid } ∧ posts uid cartoonID
  | .getDocument _ _ => True

end entitled

section step

variable {posts : Uid → DocID → Prop} {asks : Uid → Uid → Prop} {uses : Uid → Prop}

/-- An update of a cartoon that is not about its author. -/
theorem keeps_updateCartoon {x : DocID} {fields : Dictionary} (h : fields "uid" = none) :
    (DocWrite.updateData ⟨.cartoon, x⟩ fields).Keeps (Rightful posts asks) := by
  intro data hdata author hauthor
  rw [Fields.merge_of_none h] at hauthor
  exact hdata author hauthor

/-! ## Answers -/

theorem ScreenCompletion.Entitled.run {c : ScreenCompletion} {auth : Option Uid}
    (h : c.Entitled asks uses) (hauth : ∀ me, auth = some me → uses me) {m : Moment} {k : Call}
    (hk : k ∈ (c.run auth m).calls) : k.Entitled posts asks uses := by
  have hfeedback : ∀ {toUid type cartoon user},
      k ∈ FeedBackService.uploadFeedBack auth toUid type cartoon user m →
      k.Entitled posts asks uses := by
    intro toUid type cartoon user hk
    obtain ⟨-, -, -, rfl⟩ := FeedBackService.mem_uploadFeedBack hk
    exact ⟨trivial, trivial⟩
  cases c with
  | ignore => cases hk
  | antiFanned vc user =>
    cases auth with
    | none => cases hk
    | some me =>
      obtain rfl := List.mem_singleton.mp hk
      intro hfan
      cases hfan
  | fanned vc user currentUser =>
    rcases List.mem_append.mp hk with hk | hk
    · exact hfeedback hk
    · cases auth with
      | none => cases hk
      | some me =>
        obtain rfl := List.mem_singleton.mp hk
        exact fun _ => ⟨user.uid, rfl, h me (hauth me rfl)⟩
  | liked cartoon user | commented cartoon user =>
    simp only [ScreenCompletion.run] at hk
    exact hfeedback hk

theorem Completion.Entitled.run {c : Completion} {auth : Option Uid} (h : c.Entitled asks uses)
    (hauth : ∀ me, auth = some me → uses me) {m : Moment} {k : Call}
    (hk : k ∈ (c.run auth m).calls) : k.Entitled posts asks uses := by
  cases c with
  | screen c => exact ScreenCompletion.Entitled.run h hauth hk
  | fanUsers uid currentUid c =>
    obtain rfl := List.mem_singleton.mp hk
    exact h
  | antiFanUser | likeCartoon | unLikeCartoon =>
    obtain rfl := List.mem_singleton.mp hk
    exact ⟨trivial, h⟩

/-- The loops go through cartoons of the author who is followed, or through fans. -/
theorem Call.Entitled.exec {k k' : Call} (h : k.Entitled posts asks uses)
    (hauth : ∀ me, k.auth = some me → uses me) {r : Reply} {s : Firestore}
    (hs : ∀ ref data, s.lookup ref = some data → Rightful posts asks ref data)
    (hk' : k' ∈ (k.exec r s).2.calls) : k'.Entitled posts asks uses := by
  obtain ⟨auth, request⟩ := k
  cases request with
  | write w c => exact Completion.Entitled.run h.2 hauth hk'
  | getDocuments q callback =>
    simp only [Call.exec] at hk'
    split at hk'
    next =>
      cases callback with
      | updateMainUserAfterFan uid didFan =>
        obtain ⟨doc, hdoc, rfl⟩ := List.mem_map.mp hk'
        cases didFan with
        | false => exact ⟨trivial, trivial⟩
        | true =>
          obtain ⟨author, rfl, hasks⟩ := h rfl
          obtain ⟨hmem, hauthor⟩ := List.mem_filter.mp hdoc
          have hposts := hs _ _ (Store.mem_documents.mp hmem) author (of_decide_eq_true hauthor)
          exact ⟨⟨author, hposts, Or.inr hasks⟩, trivial⟩
      | updateMainUserAfterCartoon uid cartoonID =>
        obtain ⟨rfl, hposts⟩ := h
        rcases List.mem_append.mp hk' with hk' | hk'
        · obtain ⟨doc, hdoc, rfl⟩ := List.mem_map.mp hk'
          have hasks : asks doc.1 uid := hs _ _ (Store.mem_documents.mp hdoc)
          exact ⟨⟨uid, hposts, Or.inr hasks⟩, trivial⟩
        · obtain rfl := List.mem_singleton.mp hk'
          exact ⟨⟨uid, hposts, Or.inl rfl⟩, trivial⟩
    next => cases hk'
  | getDocument ref callback =>
    simp only [Call.exec] at hk'
    split at hk'
    next =>
      rw [GetCallback.calls_run] at hk'
      cases hk'
    next => cases hk'

/-- What an operation itself issues. -/
theorem Operation.entitled {o : Operation} {k : Call} (hk : k ∈ o.calls)
    (hposts : ∀ author x, o.posts = some (author, x) → posts author x)
    (hasks : ∀ v author, o.asks = some (v, author) →
      asks v author ∧ ∀ me, uses me → asks me author) : k.Entitled posts asks uses := by
  cases Operation.issues hk with
  | follow hne hfan =>
    have hask := hasks _ _ (by rw [Operation.asks, if_neg (by simp [hne, hfan])])
    exact ⟨trivial, hask⟩
  | @post a u =>
    refine ⟨fun author hauthor => ?_, trivial⟩
    have ha : some (Value.string a) = some (.string author) := hauthor
    obtain rfl := Value.string.inj (Option.some.inj ha)
    exact hposts _ _ rfl
  | fans => exact ⟨rfl, hposts _ _ rfl⟩
  | likeNumber | unLikeNumber => exact ⟨keeps_updateCartoon (by rfl), trivial⟩
  | edit => exact ⟨keeps_updateCartoon (by rfl), trivial⟩
  | fan => exact ⟨trivial, (hasks _ _ rfl).1, trivial⟩
  | editUserData => exact ⟨fun _ _ => trivial, trivial⟩
  | edited => trivial
  | unfollow | likeMark | unLikeMark | comment | unFan | deleteCartoon | userRegister =>
    exact ⟨trivial, trivial⟩

end step

namespace App

/-- The stored documents and the calls in flight respect who wants what. -/
structure Wants (posts : Uid → DocID → Prop) (asks : Uid → Uid → Prop) (n : App) : Prop where
  store : ∀ ref data, n.state.store.lookup ref = some data → Rightful posts asks ref data
  flight : ∀ t ∈ n.inflight, t.call.Entitled posts asks fun me => t.call.auth = some me

/-- The event starts no upload and no follow but those that count. -/
def Event.Respects (posts : Uid → DocID → Prop) (asks : Uid → Uid → Prop) : Event → Prop
  | .act o => (∀ author x, o.posts = some (author, x) → posts author x) ∧
    ∀ v author, o.asks = some (v, author) → asks v author
  | _ => True

variable {posts : Uid → DocID → Prop} {asks : Uid → Uid → Prop} {n n' : App}

theorem Wants.answer (h : n.Wants posts asks) {i : Nat} {r : Reply}
    (hstep : n.step (.answer i r) = some n') : n'.Wants posts asks := by
  obtain ⟨pre, t, post, hin, -, rfl⟩ := step_answer hstep
  have ht := h.flight t (by rw [hin]; simp)
  constructor
  · rcases answered_cases t r n.state.store with ⟨-, hstore⟩ | ⟨w, c, hreq, -, hstore⟩
    · rw [hstore]
      exact h.store
    · rw [hstore]
      unfold Call.Entitled at ht
      rw [hreq] at ht
      exact Store.all_apply h.store ht.1
  · intro t' ht'
    rcases mem_answered hin ht' with ht' | ⟨k, hk, rfl⟩
    · exact h.flight t' ht'
    · rw [Call.auth_exec hk]
      exact ht.exec (fun _ hme => hme) h.store hk

theorem Wants.step (h : n.Wants posts asks) {e : Event} (he : e.Respects posts asks)
    (hstep : n.step e = some n') : n'.Wants posts asks := by
  cases e with
  | act o =>
    obtain ⟨-, -, rfl⟩ := step_act hstep
    refine ⟨h.store, fun t ht => ?_⟩
    rcases mem_start ht with ht | ⟨k, hk, rfl⟩
    · exact h.flight t ht
    · refine Operation.entitled hk he.1 fun v author hasks => ?_
      rw [Operation.auth_calls hk, Operation.auth_of_asks hasks]
      have hask := he.2 v author hasks
      exact ⟨hask, fun me hme => Option.some.inj hme ▸ hask⟩
  | answer i r => exact h.answer hstep
  | fetchCartoon | fetchFeedBack =>
    cases hstep
    exact ⟨h.store, h.flight⟩

/-- At every moment of every run, whichever calls fail: a cartoon in a feed has been
uploaded in the run by the owner of the feed, or by an author whom the owner has asked to
follow in the run. -/
theorem feed_wanted {es : List Event} (hrun : run App.step (opened ∅) es = some n) {v : Uid}
    {x : DocID} (hfeed : n.state.store.has ⟨.userFeed v, x⟩ = true) :
    ∃ author, (∃ o, .act o ∈ es ∧ o.posts = some (author, x)) ∧
      (v = author ∨ ∃ o, .act o ∈ es ∧ o.asks = some (v, author)) := by
  let posts : Uid → DocID → Prop := fun author x => ∃ o, .act o ∈ es ∧ o.posts = some (author, x)
  let asks : Uid → Uid → Prop := fun v author => ∃ o, .act o ∈ es ∧ o.asks = some (v, author)
  have hes : ∀ e ∈ es, e.Respects posts asks := by
    intro e he
    cases e with
    | act o => exact ⟨fun _ _ h => ⟨o, he, h⟩, fun _ _ h => ⟨o, he, h⟩⟩
    | answer | fetchCartoon | fetchFeedBack => trivial
  have hstart : (opened ∅).Wants posts asks :=
    ⟨fun _ _ hdata => (nomatch hdata), fun _ ht => (nomatch ht)⟩
  have hstep : ∀ (n : App) e n', n.Wants posts asks → e.Respects posts asks → n.step e = some n' →
      n'.Wants posts asks := fun _ _ _ h he hstep => h.step he hstep
  have hwants := run_inv_of_forall hstep hes hstart hrun
  obtain ⟨data, hdata⟩ := Option.isSome_iff_exists.mp hfeed
  exact hwants.store _ data hdata

/-- The author follows the reader, who follows back from the notifications before the author
uploads a cartoon. -/
def followBack : List Event :=
  let reader := User.init (.ofList [("uid", .string "reader")])
  let author := User.init (.ofList [("uid", .string "author")])
  [.act (.action (.didTapButton (some "author") (some author) 0 reader)), success 0, success 0,
   success 0, success 0, .fetchFeedBack "reader" ⟨0, 0⟩, .act (.fan (some "reader") "author"),
   success 0, success 0, uploadByAuthor "c", success 1, success 1]

theorem feed_wanted_followBack : ∃ n, run App.step (opened ∅) followBack = some n ∧
    ∃ author, (∃ o, .act o ∈ followBack ∧ o.posts = some (author, "c")) ∧
      ("reader" = author ∨ ∃ o, .act o ∈ followBack ∧ o.asks = some ("reader", author)) := by
  have hrun : run App.step (opened ∅) followBack =
      some ((run App.step (opened ∅) followBack).get (by decide)) := (Option.some_get _).symm
  exact ⟨_, hrun, feed_wanted hrun (by decide)⟩

end App

end Toontagram
