import Toontagram.Lib.Flight
import Toontagram.Api.Services

/-!
# Clients and server together

Any number of devices work on one Firestore. A device acts by a user's
`Action`, which issues calls; each call is in flight until it is answered, and
answers come in any order (`Lib/Flight.lean`). A write is applied, and a read
is served, at the moment it is answered; what its closure issues may stay in
flight as long as one likes, so nothing is lost by answering in one step.

Every call in flight is kept together with the action it stems from
(`Pending.origin`). Nothing reads the origin when a call is answered: it is
there to say which calls belong to which action.
-/

namespace Toontagram

open Lib (Flight)

/-- `User.currentUser`: the profile is the one of the signed-in account. -/
def User.currentUser (auth : Option Uid) (user : User) : Bool := auth = some user.uid

/-- `ProfileCollectionViewController.header(_:didTapButton:)`: the button of the
profile screen `vc`. `tabUser` is the user of the tab bar, `none` when there is
no tab bar or it has none. The own profile opens the edit screen. -/
def header (auth : Option Uid) (tabUser : Option User) (vc : ProfileID) (user : User) :
    List Call :=
  match tabUser with
  | none => []
  | some currentUser =>
    if user.currentUser auth then []
    else if user.fan then UserService.antiFanUser auth user.uid (.antiFanned vc user)
    else UserService.fanUsers auth user.uid (.fanned vc user currentUser)

/-- The button either does nothing on the server, or unfollows or follows the
profile's user, who is not the signed-in one. -/
theorem header_cases (auth : Option Uid) (tabUser : Option User) (vc : ProfileID) (user : User) :
    header auth tabUser vc user = [] ∨
    ∃ me currentUser, auth = some me ∧ tabUser = some currentUser ∧ me ≠ user.uid ∧
      (user.fan = true ∧ header auth tabUser vc user =
          UserService.antiFanUser (some me) user.uid (.antiFanned vc user) ∨
       user.fan = false ∧ header auth tabUser vc user =
          UserService.fanUsers (some me) user.uid (.fanned vc user currentUser)) := by
  cases tabUser with
  | none => exact Or.inl rfl
  | some currentUser =>
    cases auth with
    | none =>
      left
      unfold header
      cases user.fan <;> rfl
    | some me =>
      by_cases hme : me = user.uid
      · left
        simp [header, User.currentUser, hme]
      · right
        refine ⟨me, currentUser, rfl, rfl, hme, ?_⟩
        have hcur : user.currentUser (some me) = false := by simp [User.currentUser, hme]
        cases hfan : user.fan with
        | true => exact Or.inl ⟨rfl, by simp [header, hcur, hfan]⟩
        | false => exact Or.inr ⟨rfl, by simp [header, hcur, hfan]⟩

/-- What a user can do, with the account of the device. A cartoon screen likes
with the completion that sends feedback, and unlikes with one that only sets an
image. -/
inductive Action where
  | didTapButton (auth : Option Uid) (tabUser : Option User) (vc : ProfileID) (user : User)
  | uploadCartoon (auth : Option Uid) (upload : CartoonService.Upload)
  | likeCartoon (auth : Option Uid) (cartoon : Cartoon) (user : User)
  | unLikeCartoon (auth : Option Uid) (cartoon : Cartoon)
  | editCartoon (auth : Option Uid) (type : String) (cartoonId : DocID) (title caption : String)
deriving DecidableEq, Repr

namespace Action

/-- The calls an action issues at once. -/
def calls : Action → List Call
  | .didTapButton auth tabUser vc user => header auth tabUser vc user
  | .uploadCartoon auth upload => CartoonService.uploadCartoon auth upload
  | .likeCartoon auth cartoon user => CartoonService.likeCartoon auth cartoon (.liked cartoon user)
  | .unLikeCartoon auth cartoon => CartoonService.unLikeCartoon auth cartoon .ignore
  | .editCartoon auth type cartoonId title caption =>
    CartoonService.editCartoon auth type cartoonId title caption

/-- The identifier `addDocument` draws for the action. -/
def newRef : Action → Option DocID
  | .uploadCartoon _ upload => some upload.ref
  | _ => none

end Action

/-- The store, and what each profile screen shows as `user.fan`. -/
structure World where
  store : Firestore
  fan : ProfileID → Bool

/-- An assignment of a closure, as far as the profile screens are concerned. -/
def Effect.onWorld (w : World) : Effect → World
  | .profileFan vc fan => { w with fan := fun v => if v = vc then fan else w.fan v }
  | .didLike _ => w
  | .newCartoon _ => w

@[simp] theorem Effect.onWorld_store (w : World) (e : Effect) : (e.onWorld w).store = w.store := by
  cases e <;> rfl

/-- A call in flight and the action it stems from. -/
structure Pending where
  origin : Action
  call : Call

/-- Answering a call in flight; what its closure issues has the same origin. -/
def Pending.exec (p : Pending) (r : Reply) (w : World) : World × List Pending :=
  let (store, reaction) := p.call.exec r w.store
  (reaction.effects.foldl Effect.onWorld { w with store := store },
    reaction.calls.map fun k => ⟨p.origin, k⟩)

@[simp] theorem foldl_onWorld_store (es : List Effect) (w : World) :
    (es.foldl Effect.onWorld w).store = w.store := by
  induction es generalizing w with
  | nil => rfl
  | cons e es ih => rw [List.foldl_cons, ih, Effect.onWorld_store]

/-- The store after an answer. -/
@[simp] theorem Pending.exec_store (p : Pending) (r : Reply) (w : World) :
    (p.exec r w).1.store = (p.call.exec r w.store).1 := by
  rw [Pending.exec, foldl_onWorld_store]

/-- The calls that join the ones in flight after an answer. -/
theorem Pending.exec_calls (p : Pending) (r : Reply) (w : World) :
    (p.exec r w).2 = (p.call.exec r w.store).2.calls.map fun k => ⟨p.origin, k⟩ := rfl

/-- All devices and the server. -/
abbrev Net := Flight World Pending

/-- An action is taken, or the `i`-th call in flight is answered. -/
inductive Event where
  | act (a : Action)
  | answer (i : Nat) (r : Reply)
deriving DecidableEq, Repr

namespace Net

/-- The calls of an action join the ones in flight. -/
def start (n : Net) (a : Action) : Net := n.issue (a.calls.map fun k => ⟨a, k⟩)

/-- `addDocument` draws an identifier that names no cartoon, stored or on its way. -/
def fresh (n : Net) (a : Action) : Bool :=
  match a.newRef with
  | none => true
  | some ref =>
    !n.state.store.has ⟨.cartoon, ref⟩ && n.inflight.all fun p => p.origin.newRef != some ref

/-- One event. -/
def step (n : Net) : Event → Option Net
  | .act a => if n.fresh a then some (n.start a) else none
  | .answer i r => n.answer Pending.exec i r

/-- No call is in flight. -/
def Quiet (n : Net) : Prop := n.inflight = []

instance (n : Net) : Decidable n.Quiet :=
  decidable_of_iff (n.inflight.isEmpty = true) List.isEmpty_iff

theorem step_act {n n' : Net} {o : Action} (h : n.step (.act o) = some n') :
    n.fresh o = true ∧ n' = n.start o := by
  by_cases hfresh : n.fresh o = true
  · exact ⟨hfresh, by simpa [step, hfresh] using h.symm⟩
  · simp [step, hfresh] at h

theorem step_answer {n n' : Net} {i : Nat} {r : Reply} (h : n.step (.answer i r) = some n') :
    ∃ pre p post, n.inflight = pre ++ p :: post ∧ pre.length = i ∧
      n' = ⟨(p.exec r n.state).1, pre ++ post ++ (p.exec r n.state).2⟩ :=
  Flight.answer_cases h

/-- What is in flight after an answer was so before, or was issued by the
closure that has just run and has the origin of its call. -/
theorem mem_answered {n : Net} {pre post : List Pending} {p q : Pending} {r : Reply}
    (hin : n.inflight = pre ++ p :: post)
    (hq : q ∈ pre ++ post ++ (p.exec r n.state).2) :
    q ∈ n.inflight ∨ ∃ k ∈ (p.call.exec r n.state.store).2.calls, q = ⟨p.origin, k⟩ := by
  rcases Flight.mem_of_answered (k := p) hq with hq | hq
  · exact Or.inl (hin ▸ hq)
  · rw [Pending.exec_calls] at hq
    obtain ⟨k, hk, rfl⟩ := List.mem_map.mp hq
    exact Or.inr ⟨k, hk, rfl⟩

/-- The start: a store that nobody is working on. -/
def opened (store : Firestore) : Net := ⟨⟨store, fun _ => false⟩, []⟩

end Net

end Toontagram
