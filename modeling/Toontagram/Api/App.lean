import Toontagram.Lib.History
import Toontagram.Lib.Run
import Toontagram.Api.World

/-!
# The whole app

Everything that any number of clients do to Firestore through the app. `Net`
(`Api/World.lean`) has the actions the feeds depend on; here are all operations
that write: the comments, the follow buttons of the notification screen, the
deletion of a cartoon, the edit of a profile and the profile of a new account.
As there, an operation issues calls, and each is answered at any time and in any
order, with or without an error.

A screen acts on what it has read, which may be long out of date: `cartoons` are
the cartoons that some screen has decoded, and `feedbacks` the rows of the
notification screens, each with the account whose inbox it was read from. None
is ever dropped, so a screen may hold a copy of any age. `log` is for the
theorems only: it lists the writes the server has accepted, and no client reads
it.
-/

namespace Toontagram

open Lib (Flight)
open CartoonService (Upload)
open AuthService (Registration)

/-! ## Operations -/

/-- `CommentCollectionViewController.inputView(_:loadComment:)`. -/
def inputView (auth : Option Uid) (tabUser : Option User) (cartoon : Cartoon) (comment : String)
    (m : Moment) : List Call :=
  match tabUser with
  | none => []
  | some currentUser =>
    CommentService.uploadComment auth comment cartoon.cartoonId currentUser m
      (.commented cartoon currentUser)

/-- An operation of the app that writes, with the account of the device. -/
inductive Operation where
  | action (a : Action)
  /-- A comment is sent. -/
  | loadComment (auth : Option Uid) (tabUser : Option User) (cartoon : Cartoon)
      (comment : String) (m : Moment)
  /-- `FeedBackTableViewController.cell(_:fan:)`. -/
  | fan (auth : Option Uid) (uid : Uid)
  /-- `FeedBackTableViewController.cell(_:unFan:)`. -/
  | unFan (auth : Option Uid) (uid : Uid)
  | deleteCartoon (auth : Option Uid) (cartoon : Cartoon)
  /-- A profile is edited, from the closure on that has the two URLs. -/
  | editUserData (auth : Option Uid) (user : User) (str : Vector String 2) (intro : String)
  /-- An account is registered, from the closure of `createUser` on. -/
  | userRegister (r : Registration)
deriving DecidableEq

namespace Operation

/-- The calls an operation issues at once. -/
def calls : Operation → List Call
  | .action a => a.calls
  | .loadComment auth tabUser cartoon comment m => inputView auth tabUser cartoon comment m
  | .fan auth uid => UserService.fanUsers auth uid .ignore
  | .unFan auth uid => UserService.antiFanUser auth uid .ignore
  | .deleteCartoon auth cartoon => CartoonService.deleteCartoon auth cartoon
  | .editUserData auth user str intro => UserService.editUserData auth user str intro
  | .userRegister r => AuthService.createdUser r

/-- The document with a new name that the operation creates: `addDocument` and
`createUser` draw an identifier. -/
def newRef : Operation → Option DocRef
  | .action a => a.newRef.map fun ref => ⟨.cartoon, ref⟩
  | .userRegister r => some ⟨.user, r.uid⟩
  | _ => none

/-- The account of the device on which the operation is done. -/
def auth : Operation → Option Uid
  | .action (.didTapButton auth _ _ _) => auth
  | .action (.uploadCartoon auth _) => auth
  | .action (.likeCartoon auth _ _) => auth
  | .action (.unLikeCartoon auth _) => auth
  | .action (.editCartoon auth _ _ _ _) => auth
  | .loadComment auth _ _ _ _ => auth
  | .fan auth _ => auth
  | .unFan auth _ => auth
  | .deleteCartoon auth _ => auth
  | .editUserData auth _ _ _ => auth
  | .userRegister r => some r.uid

end Operation

/-- Every call that an operation issues at once. -/
inductive Issues : Operation → Call → Prop where
  | unfollow {me : Uid} {currentUser : User} {vc : ProfileID} {user : User}
      (hne : me ≠ user.uid) (hfan : user.fan = true) :
      Issues (.action (.didTapButton (some me) (some currentUser) vc user))
        ⟨some me, .write (.delete ⟨.userStar me, user.uid⟩)
          (.antiFanUser user.uid me (.antiFanned vc user))⟩
  | follow {me : Uid} {currentUser : User} {vc : ProfileID} {user : User}
      (hne : me ≠ user.uid) (hfan : user.fan = false) :
      Issues (.action (.didTapButton (some me) (some currentUser) vc user))
        ⟨some me, .write (.setData ⟨.userStar me, user.uid⟩ .empty)
          (.fanUsers user.uid me (.fanned vc user currentUser))⟩
  | post {a : Uid} {u : Upload} :
      Issues (.action (.uploadCartoon (some a) u))
        ⟨some a, .write (.setData ⟨.cartoon, u.ref⟩ (u.data a)) (.screen .ignore)⟩
  | fans {a : Uid} {u : Upload} :
      Issues (.action (.uploadCartoon (some a) u))
        ⟨some a, .getDocuments { collection := .userFan a }
          (.updateMainUserAfterCartoon a u.ref)⟩
  | likeNumber {a : Uid} {cartoon : Cartoon} {user : User} :
      Issues (.action (.likeCartoon (some a) cartoon user))
        ⟨some a, .write (.updateData ⟨.cartoon, cartoon.cartoonId⟩
          (.ofList [("like", .int (cartoon.like + 1))])) (.screen .ignore)⟩
  | likeMark {a : Uid} {cartoon : Cartoon} {user : User} :
      Issues (.action (.likeCartoon (some a) cartoon user))
        ⟨some a, .write (.setData ⟨.cartoonLikes cartoon.cartoonId, a⟩ .empty)
          (.likeCartoon a cartoon.cartoonId (.liked cartoon user))⟩
  | unLikeNumber {a : Uid} {cartoon : Cartoon} (h : cartoon.like > 0) :
      Issues (.action (.unLikeCartoon (some a) cartoon))
        ⟨some a, .write (.updateData ⟨.cartoon, cartoon.cartoonId⟩
          (.ofList [("like", .int (cartoon.like - 1))])) (.screen .ignore)⟩
  | unLikeMark {a : Uid} {cartoon : Cartoon} (h : cartoon.like > 0) :
      Issues (.action (.unLikeCartoon (some a) cartoon))
        ⟨some a, .write (.delete ⟨.cartoonLikes cartoon.cartoonId, a⟩)
          (.unLikeCartoon a cartoon.cartoonId .ignore)⟩
  | edit {auth : Option Uid} {type : String} {cartoonId : DocID} {title caption : String} :
      Issues (.action (.editCartoon auth type cartoonId title caption))
        ⟨auth, .write (.updateData ⟨.cartoon, cartoonId⟩
          (.ofList [("title", .string title), ("type", .string type),
            ("caption", .string caption)])) (.screen .ignore)⟩
  | edited {auth : Option Uid} {type : String} {cartoonId : DocID} {title caption : String} :
      Issues (.action (.editCartoon auth type cartoonId title caption))
        ⟨auth, .getDocument ⟨.cartoon, cartoonId⟩ .edited⟩
  | comment {auth : Option Uid} {currentUser : User} {cartoon : Cartoon} {comment : String}
      {m : Moment} {data : Dictionary} :
      Issues (.loadComment auth (some currentUser) cartoon comment m)
        ⟨auth, .write (.setData ⟨.comments cartoon.cartoonId, m.autoID⟩ data)
          (.screen (.commented cartoon currentUser))⟩
  | fan {me uid : Uid} : Issues (.fan (some me) uid)
        ⟨some me, .write (.setData ⟨.userStar me, uid⟩ .empty) (.fanUsers uid me .ignore)⟩
  | unFan {me uid : Uid} : Issues (.unFan (some me) uid)
        ⟨some me, .write (.delete ⟨.userStar me, uid⟩) (.antiFanUser uid me .ignore)⟩
  | deleteCartoon {auth : Option Uid} {cartoon : Cartoon} : Issues (.deleteCartoon auth cartoon)
        ⟨auth, .write (.delete ⟨.cartoon, cartoon.cartoonId⟩) (.screen .ignore)⟩
  | editUserData {auth : Option Uid} {user : User} {str : Vector String 2} {intro : String} :
      Issues (.editUserData auth user str intro)
        ⟨auth, .write (.updateData ⟨.user, user.uid⟩ (UserService.edited str intro))
          (.screen .ignore)⟩
  | userRegister {r : Registration} : Issues (.userRegister r)
        ⟨some r.uid, .write (.setData ⟨.user, r.uid⟩ r.data) (.screen .ignore)⟩

theorem Operation.issues {o : Operation} {k : Call} (hk : k ∈ o.calls) : Issues o k := by
  cases o with
  | action a =>
    cases a with
    | didTapButton auth tabUser vc user =>
      rcases header_cases auth tabUser vc user with
        h | ⟨me, currentUser, rfl, rfl, hne, ⟨hfan, h⟩ | ⟨hfan, h⟩⟩ <;>
        simp only [calls, Action.calls, h] at hk
      · cases hk
      · rw [List.mem_singleton.mp hk]
        exact .unfollow hne hfan
      · rw [List.mem_singleton.mp hk]
        exact .follow hne hfan
    | uploadCartoon auth u =>
      cases auth with
      | none => cases hk
      | some a =>
        rcases List.mem_cons.mp hk with rfl | hk
        · exact .post
        · rw [List.mem_singleton.mp hk]
          exact .fans
    | likeCartoon auth cartoon user =>
      cases auth with
      | none => cases hk
      | some a =>
        rcases List.mem_cons.mp hk with rfl | hk
        · exact .likeNumber
        · rw [List.mem_singleton.mp hk]
          exact .likeMark
    | unLikeCartoon auth cartoon =>
      cases auth with
      | none => cases hk
      | some a =>
        simp only [calls, Action.calls, CartoonService.unLikeCartoon] at hk
        split at hk
        next hlike =>
          rcases List.mem_cons.mp hk with rfl | hk
          · exact .unLikeNumber hlike
          · rw [List.mem_singleton.mp hk]
            exact .unLikeMark hlike
        next => cases hk
    | editCartoon auth type cartoonId title caption =>
      rcases List.mem_cons.mp hk with rfl | hk
      · exact .edit
      · rw [List.mem_singleton.mp hk]
        exact .edited
  | loadComment auth tabUser cartoon comment m =>
    cases tabUser with
    | none => cases hk
    | some currentUser =>
      rw [List.mem_singleton.mp hk]
      exact .comment
  | fan auth uid =>
    cases auth with
    | none => cases hk
    | some me =>
      rw [List.mem_singleton.mp hk]
      exact .fan
  | unFan auth uid =>
    cases auth with
    | none => cases hk
    | some me =>
      rw [List.mem_singleton.mp hk]
      exact .unFan
  | deleteCartoon auth cartoon =>
    rw [List.mem_singleton.mp hk]
    exact .deleteCartoon
  | editUserData auth user str intro =>
    rw [List.mem_singleton.mp hk]
    exact .editUserData
  | userRegister r =>
    rw [List.mem_singleton.mp hk]
    exact .userRegister

/-- What an operation issues belongs to the account of its device. -/
theorem Operation.auth_calls {o : Operation} {k : Call} (hk : k ∈ o.calls) : k.auth = o.auth := by
  cases Operation.issues hk <;> rfl

/-- What a closure issues belongs to the account of its call. -/
theorem Call.auth_exec {k k' : Call} {r : Reply} {s : Firestore}
    (hk' : k' ∈ (k.exec r s).2.calls) : k'.auth = k.auth := by
  cases Call.spawned_exec hk' <;> rfl

/-! ## The system -/

/-- An accepted write and the operation it stems from. -/
structure Entry where
  origin : Operation
  write : Write

/-- Firestore, the log of its writes, and what the screens have read. -/
structure Backend where
  store : Firestore
  log : List Entry
  cartoons : List Cartoon
  feedbacks : List (Uid × FeedBack)

/-- A call in flight and the operation it stems from. -/
structure Task where
  origin : Operation
  call : Call

namespace Task

/-- What the answer of a call adds to the log. -/
def logged (t : Task) (r : Reply) : List Entry :=
  match t.call.request with
  | .write w _ => if r.ok then [⟨t.origin, w⟩] else []
  | _ => []

/-- Answering a call in flight; what its closure issues has the same origin. -/
def exec (t : Task) (r : Reply) (b : Backend) : Backend × List Task :=
  let (store, reaction) := t.call.exec r b.store
  ({ b with store := store, log := b.log ++ t.logged r },
    reaction.calls.map fun k => ⟨t.origin, k⟩)

end Task

/-- All clients and the server. -/
abbrev App := Flight Backend Task

namespace App

/-- An operation is started, a call is answered, or a screen reads: a cartoon
that is stored, or the notifications of an account. The cartoon that
`editCartoon` hands to its screen is one that is read in this way. -/
inductive Event where
  | act (o : Operation)
  | answer (i : Nat) (r : Reply)
  | fetchCartoon (cartoonID : DocID) (r : Reply)
  | fetchFeedBack (uid : Uid) (now : Timestamp)
deriving DecidableEq

/-- A screen has the cartoon; it may have changed `didLike` in its copy. -/
def showsCartoon (n : App) (cartoon : Cartoon) : Bool :=
  n.state.cartoons.contains { cartoon with didLike := false }

/-- The notification screen of the account has a row with a follow button. -/
def showsRow (n : App) (auth : Option Uid) (uid : Uid) : Bool :=
  n.state.feedbacks.any fun row =>
    auth == some row.1 && row.2.type == .fan && row.2.uid == uid

/-- There is a screen that can start the operation. -/
def shows (n : App) : Operation → Bool
  | .action (.likeCartoon _ cartoon _) => n.showsCartoon cartoon
  | .action (.unLikeCartoon _ cartoon) => n.showsCartoon cartoon
  | .loadComment _ _ cartoon _ _ => n.showsCartoon cartoon
  | .deleteCartoon _ cartoon => n.showsCartoon cartoon
  | .fan auth uid => n.showsRow auth uid
  | .unFan auth uid => n.showsRow auth uid
  | _ => true

/-- The identifier that an operation draws has not been drawn before. -/
def fresh (n : App) (o : Operation) : Bool :=
  match o.newRef with
  | none => true
  | some ref =>
    !n.state.store.has ref && (n.inflight.all fun t => t.origin.newRef != some ref) &&
      n.state.log.all fun e => e.origin.newRef != some ref

/-- The calls of an operation join the ones in flight. -/
def start (n : App) (o : Operation) : App := n.issue (o.calls.map fun k => ⟨o, k⟩)

/-- A screen reads a cartoon. -/
def fetchCartoon (n : App) (cartoonID : DocID) (r : Reply) : App :=
  { n with state.cartoons := n.state.cartoons ++
      (CartoonService.fetchCartoon n.state.store cartoonID r).toList }

/-- `fetchFeedBack` for the account `uid`. -/
def fetchFeedBack (n : App) (uid : Uid) (now : Timestamp) : App :=
  { n with state.feedbacks := n.state.feedbacks ++
      (n.state.store.documents (.userFeedback uid)).map fun doc =>
        (uid, FeedBack.init now doc.2) }

/-- One event. -/
def step (n : App) : Event → Option App
  | .act o => if n.shows o && n.fresh o then some (n.start o) else none
  | .answer i r => n.answer Task.exec i r
  | .fetchCartoon cartoonID r => some (n.fetchCartoon cartoonID r)
  | .fetchFeedBack uid now => some (n.fetchFeedBack uid now)

/-- A store that nobody has written to or read from yet. -/
def opened (store : Firestore) : App := ⟨⟨store, [], [], []⟩, []⟩

/-- No call is in flight. -/
def Quiet (n : App) : Prop := n.inflight = []

instance (n : App) : Decidable n.Quiet :=
  decidable_of_iff (n.inflight.isEmpty = true) List.isEmpty_iff

variable {n n' : App}

theorem step_act {o : Operation} (h : n.step (.act o) = some n') :
    n.shows o = true ∧ n.fresh o = true ∧ n' = n.start o := by
  simp only [step] at h
  split at h
  next hguard =>
    obtain ⟨hshows, hfresh⟩ := Bool.and_eq_true_iff.mp hguard
    exact ⟨hshows, hfresh, (Option.some.inj h).symm⟩
  next => cases h

/-- A call leaves the flight, its write reaches the store and the log, and the
calls of its closure join the flight. -/
theorem step_answer {i : Nat} {r : Reply} (h : n.step (.answer i r) = some n') :
    ∃ pre t post, n.inflight = pre ++ t :: post ∧ pre.length = i ∧
      n' = ⟨{ n.state with
          store := (t.call.exec r n.state.store).1
          log := n.state.log ++ t.logged r },
        pre ++ post ++ (t.call.exec r n.state.store).2.calls.map fun k => ⟨t.origin, k⟩⟩ :=
  Flight.answer_cases h

/-- What is in flight after an answer was so before, or was issued by the
closure that has just run and has the origin of its call. -/
theorem mem_answered {pre post : List Task} {t t' : Task} {calls : List Call}
    (hin : n.inflight = pre ++ t :: post)
    (ht' : t' ∈ pre ++ post ++ calls.map fun k => ⟨t.origin, k⟩) :
    t' ∈ n.inflight ∨ ∃ k ∈ calls, t' = ⟨t.origin, k⟩ := by
  rcases Flight.mem_of_answered (k := t) ht' with h | h
  · exact Or.inl (hin ▸ h)
  · obtain ⟨k, hk, rfl⟩ := List.mem_map.mp h
    exact Or.inr ⟨k, hk, rfl⟩

theorem mem_start {o : Operation} {t : Task} (ht : t ∈ (n.start o).inflight) :
    t ∈ n.inflight ∨ ∃ k ∈ o.calls, t = ⟨o, k⟩ := by
  rcases List.mem_append.mp ht with h | h
  · exact Or.inl h
  · obtain ⟨k, hk, rfl⟩ := List.mem_map.mp h
    exact Or.inr ⟨k, hk, rfl⟩

/-- An answer leaves store and log alone, or it is that of a write, which both get. -/
theorem answered_cases (t : Task) (r : Reply) (s : Firestore) :
    (t.logged r = [] ∧ (t.call.exec r s).1 = s) ∨
    ∃ w c, t.call.request = .write w c ∧ t.logged r = [⟨t.origin, w⟩] ∧
      (t.call.exec r s).1 = w.apply s := by
  obtain ⟨origin, auth, request⟩ := t
  cases request with
  | write w c =>
    cases hok : r.ok with
    | true => exact Or.inr ⟨w, c, rfl, by simp [Task.logged, hok], by simp [Call.exec, hok]⟩
    | false => exact Or.inl ⟨by simp [Task.logged, hok], by simp [Call.exec, hok]⟩
  | getDocuments q callback => exact Or.inl ⟨rfl, rfl⟩
  | getDocument ref callback => exact Or.inl ⟨rfl, rfl⟩

end App

end Toontagram
