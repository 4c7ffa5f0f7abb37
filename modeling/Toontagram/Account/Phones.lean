import Mathlib.Logic.Function.Basic
import Toontagram.Feed.Away

/-!
# Phones on which accounts change

In `Api/App.lean` an operation and all that follows from it belong to one account. But the
closures ask for `Auth.auth().currentUser` again, and by the time they run somebody else may be
signed in on the phone, or nobody. `uploadCartoon` asks before the pictures are stored and,
for the feeds, once more afterwards: the cartoon bears the first account's name and goes to the
fans of the second one.

`Phones.step` lets accounts sign in and out on any number of phones at any time. As long
as this happens only on phones that wait for nothing, it is the app of `Api/App.lean`, and
the other way round every run of the app is one of phones (`App.reachable_iff`).
-/

namespace Toontagram

open Lib (Along Flight run run_refines)
open CartoonService (Upload)

/-- The call, when its closure finds `auth` signed in. -/
def Call.on (auth : Option Uid) (k : Call) : Call := { k with auth := auth }

/-- The closure of `imageUpload` in `uploadCartoon`: `a` is the account that was signed in
when the upload began, `auth` the one that is signed in now. -/
def CartoonService.uploaded (auth : Option Uid) (a : Uid) (u : Upload) : List Call :=
  ⟨auth, .write (.setData ⟨.cartoon, u.ref⟩ (u.data a)) (.screen .ignore)⟩ ::
    updateMainUserAfterCartoon auth u.ref

/-- A call in flight and the phone that waits for it. -/
structure Errand (P : Type) where
  phone : P
  task : Task

/-- What the phones share, and for each of them who is signed in. -/
structure Shared (P : Type) where
  backend : Backend
  auth : P → Option Uid
  /-- The uploads whose pictures are being stored, each with the account that began it. -/
  uploads : List (P × Uid)

/-- Answering a call: its closure finds the account that is signed in by now. -/
def Errand.exec {P : Type} (e : Errand P) (r : Reply) (s : Shared P) : Shared P × List (Errand P) :=
  let (backend, tasks) := Task.exec { e.task with call := e.task.call.on (s.auth e.phone) } r
    s.backend
  ({ s with backend := backend }, tasks.map fun t => ⟨e.phone, t⟩)

/-- All phones and the server. -/
abbrev Phones (P : Type) := Flight (Shared P) (Errand P)

inductive PhoneEvent (P : Type) where
  /-- Somebody signs in, or out. -/
  | signIn (p : P) (auth : Option Uid)
  | act (p : P) (o : Operation)
  /-- `uploadCartoon` is called. -/
  | upload (p : P)
  /-- The pictures of an upload that `a` began are stored. -/
  | uploaded (p : P) (a : Uid) (u : Upload)
  | answer (i : Nat) (r : Reply)
  | fetchCartoon (cartoonID : DocID) (r : Reply)
  | fetchFeedBack (p : P) (uid : Uid) (now : Timestamp)

namespace Phones

variable {P : Type}

/-- The phones without their accounts. -/
def app (n : Phones P) : App := n.map Shared.backend Errand.task

/-- A notification screen has the row, whichever account it was read for: the rows stay when
another one signs in. -/
def displaysRow (n : Phones P) : Operation → Bool
  | .fan _ uid => n.state.backend.feedbacks.any fun row => row.2.type == .fan && row.2.uid == uid
  | .unFan _ uid => n.state.backend.feedbacks.any fun row => row.2.type == .fan && row.2.uid == uid
  | _ => false

/-- There is a screen that can start the operation. -/
def displays (n : Phones P) (o : Operation) : Bool := n.app.shows o || n.displaysRow o

/-- Calls of an operation join the ones in flight. -/
def start (n : Phones P) (p : P) (o : Operation) (ks : List Call) : Phones P :=
  n.issue (ks.map fun k => ⟨p, o, k⟩)

def withBackend (n : Phones P) (b : Backend) : Phones P := { n with state.backend := b }

/-- One event. An upload is not started by `act`; it has two events. -/
def step [DecidableEq P] (n : Phones P) : PhoneEvent P → Option (Phones P)
  -- a sign-out cancels nothing: the calls of the phone stay in flight
  | .signIn p auth => some { n with state.auth := Function.update n.state.auth p auth }
  | .act p o =>
    if o.auth = n.state.auth p ∧ o.posts = none ∧ n.displays o ∧ n.app.fresh o then
      some (n.start p o o.calls)
    else none
  | .upload p =>
    -- the guard of `uploadCartoon` keeps `uid`, and `imageUpload` takes its time
    (n.state.auth p).map fun a => { n with state.uploads := n.state.uploads ++ [(p, a)] }
  | .uploaded p a u =>
    -- its closure writes that `uid`, and the loop over the fans asks for the account again
    if (p, a) ∈ n.state.uploads ∧ n.app.fresh (.action (.uploadCartoon (some a) u)) then
      some (Phones.start { n with state.uploads := n.state.uploads.erase (p, a) } p
        (.action (.uploadCartoon (some a) u)) (CartoonService.uploaded (n.state.auth p) a u))
    else none
  | .answer i r => n.answer Errand.exec i r
  | .fetchCartoon cartoonID r => some (n.withBackend (n.app.fetchCartoon cartoonID r).state)
  | .fetchFeedBack p uid now =>
    if n.state.auth p = some uid then some (n.withBackend (n.app.fetchFeedBack uid now).state)
    else none

/-- Nothing is written or read yet; `auth` are signed in. -/
def opened (store : Firestore) (auth : P → Option Uid) : Phones P :=
  ⟨⟨⟨store, [], [], []⟩, auth, []⟩, []⟩

/-! ## Accounts that stay -/

/-- The phone waits for no answer and stores no pictures. -/
def Idle (n : Phones P) (p : P) : Prop :=
  (∀ e ∈ n.inflight, e.phone ≠ p) ∧ ∀ q ∈ n.state.uploads, q.1 ≠ p

/-- Accounts sign in and out where nothing is under way, and the row of a notification screen
is used by the account it was read for. -/
def Steady (n : Phones P) : PhoneEvent P → Prop
  | .signIn p _ => n.Idle p
  | .act _ o => n.app.shows o = true
  | _ => True

/-- Every call belongs to the account that is signed in on its phone. -/
structure Aligned (n : Phones P) : Prop where
  flight : ∀ e ∈ n.inflight, e.task.call.auth = n.state.auth e.phone
  uploads : ∀ q ∈ n.state.uploads, n.state.auth q.1 = some q.2

variable {n n' : Phones P}

@[simp] theorem app_start (p : P) (o : Operation) :
    (n.start p o o.calls).app = n.app.start o := by
  simp [app, start, App.start, Flight.issue, Flight.map, Function.comp_def]

theorem Aligned.start (h : n.Aligned) {p : P} {o : Operation} {ks : List Call}
    (hks : ∀ k ∈ ks, k.auth = n.state.auth p) : (n.start p o ks).Aligned := by
  refine ⟨fun e he => ?_, h.uploads⟩
  rcases List.mem_append.mp he with he | he
  · exact h.flight e he
  · obtain ⟨k, hk, rfl⟩ := List.mem_map.mp he
    exact hks k hk

/-- The account that signs in takes over no call of another one. -/
theorem Aligned.signIn [DecidableEq P] (h : n.Aligned) {p : P} (hidle : n.Idle p)
    (auth : Option Uid) :
    Aligned { n with state.auth := Function.update n.state.auth p auth } := by
  constructor
  · intro e he
    have hne : e.phone ≠ p := hidle.1 e he
    show _ = Function.update n.state.auth p auth e.phone
    rw [Function.update_of_ne hne]
    exact h.flight e he
  · intro q hq
    have hne : q.1 ≠ p := hidle.2 q hq
    show Function.update n.state.auth p auth q.1 = _
    rw [Function.update_of_ne hne]
    exact h.uploads q hq

/-- On a phone with its own account a call is answered as in the app. -/
theorem Aligned.exec (h : n.Aligned) {e : Errand P} (he : e ∈ n.inflight) (r : Reply) :
    e.exec r n.state =
      ({ n.state with backend := (e.task.exec r n.state.backend).1 },
        (e.task.exec r n.state.backend).2.map fun t => ⟨e.phone, t⟩) := by
  have hsame : e.task.call.on (n.state.auth e.phone) = e.task.call := by
    rw [← h.flight e he]
    rfl
  rw [Errand.exec, hsame]

theorem Aligned.answer (h : n.Aligned) {i : Nat} {r : Reply}
    (hstep : n.answer Errand.exec i r = some n') :
    n'.Aligned ∧ n.app.step (.answer i r) = some n'.app := by
  constructor
  · obtain ⟨pre, e, post, hin, -, rfl⟩ := Flight.answer_cases hstep
    have he : e ∈ n.inflight := by rw [hin]; simp
    rw [h.exec he]
    refine ⟨fun e' he' => ?_, h.uploads⟩
    rcases Flight.mem_of_answered (k := e) he' with he' | he'
    · exact h.flight e' (hin ▸ he')
    · obtain ⟨t, ht, rfl⟩ := List.mem_map.mp he'
      obtain ⟨k, hk, rfl⟩ := List.mem_map.mp ht
      exact (Call.auth_exec hk).trans (h.flight e he)
  · refine Flight.answer_map hstep fun e he => ?_
    rw [h.exec he]
    simp [Function.comp_def]

/-- What an event of the phones is in the app. -/
def image : PhoneEvent P → List App.Event
  | .signIn _ _ => []
  | .act _ o => [.act o]
  | .upload _ => []
  | .uploaded _ a u => [.act (.action (.uploadCartoon (some a) u))]
  | .answer i r => [.answer i r]
  | .fetchCartoon cartoonID r => [.fetchCartoon cartoonID r]
  | .fetchFeedBack _ uid now => [.fetchFeedBack uid now]

theorem run_singleton {m m' : App} {e : App.Event} (h : m.step e = some m') :
    run App.step m [e] = some m' := by
  rw [run, h]
  rfl

theorem step_app {m : App} {o : Operation} (hshows : m.shows o = true) (hfresh : m.fresh o = true) :
    run App.step m [.act o] = some (m.start o) := by
  refine run_singleton ?_
  simp only [App.step, hshows, hfresh, Bool.and_self, if_true]

theorem Aligned.step [DecidableEq P] (h : n.Aligned) {e : PhoneEvent P} (hsteady : n.Steady e)
    (hstep : n.step e = some n') :
    n'.Aligned ∧ run App.step n.app (image e) = some n'.app := by
  cases e with
  | signIn p auth =>
    cases hstep
    exact ⟨h.signIn hsteady auth, rfl⟩
  | act p o =>
    obtain ⟨⟨hauth, -, -, hfresh⟩, hstart⟩ := Option.ite_none_right_eq_some.mp hstep
    obtain rfl := Option.some.inj hstart
    refine ⟨h.start fun k hk => (Operation.auth_calls hk).trans hauth, ?_⟩
    rw [app_start]
    exact step_app hsteady hfresh
  | upload p =>
    obtain ⟨a, ha, rfl⟩ := Option.map_eq_some_iff.mp hstep
    refine ⟨⟨h.flight, fun q hq => ?_⟩, rfl⟩
    rcases List.mem_append.mp hq with hq | hq
    · exact h.uploads q hq
    · rw [List.mem_singleton.mp hq]
      exact ha
  | uploaded p a u =>
    obtain ⟨⟨hupload, hfresh⟩, hstart⟩ := Option.ite_none_right_eq_some.mp hstep
    obtain rfl := Option.some.inj hstart
    -- nobody has signed in or out since the upload began, so its loop is that of the app
    have hauth : n.state.auth p = some a := h.uploads _ hupload
    have herase : Aligned { n with state.uploads := n.state.uploads.erase (p, a) } :=
      ⟨h.flight, fun q hq => h.uploads q (List.mem_of_mem_erase hq)⟩
    have hcalls : CartoonService.uploaded (n.state.auth p) a u =
        (Operation.action (.uploadCartoon (some a) u)).calls := by
      rw [hauth]
      rfl
    rw [hcalls]
    refine ⟨herase.start fun k hk => (Operation.auth_calls hk).trans hauth.symm, ?_⟩
    rw [app_start]
    exact step_app rfl hfresh
  | answer i r =>
    obtain ⟨haligned, happ⟩ := h.answer hstep
    exact ⟨haligned, run_singleton happ⟩
  | fetchCartoon cartoonID r =>
    cases hstep
    exact ⟨⟨h.flight, h.uploads⟩, rfl⟩
  | fetchFeedBack p uid now =>
    obtain ⟨-, hfetch⟩ := Option.ite_none_right_eq_some.mp hstep
    obtain rfl := Option.some.inj hfetch
    exact ⟨⟨h.flight, h.uploads⟩, rfl⟩

end Phones

/-! ## Every account on its own phone -/

namespace App

/-- The app on phones that are named after the accounts signed in on them. -/
def onPhones (m : App) : Phones (Option Uid) :=
  m.map (fun b => ⟨b, id, []⟩) fun t => ⟨t.call.auth, t⟩

@[simp] theorem app_onPhones (m : App) : m.onPhones.app = m := by
  simp [onPhones, Phones.app, Flight.map, Function.comp_def]

/-- The phone that an event of the app happens on, and what happens there. -/
def Event.phone : Event → List (PhoneEvent (Option Uid))
  | .act (.action (.uploadCartoon (some a) u)) => [.upload (some a), .uploaded (some a) a u]
  | .act o => [.act o.auth o]
  | .answer i r => [.answer i r]
  | .fetchCartoon cartoonID r => [.fetchCartoon cartoonID r]
  | .fetchFeedBack uid now => [.fetchFeedBack (some uid) uid now]

variable {m m' : App}

theorem start_onPhones {p : Option Uid} {o : Operation} (hauth : o.auth = p) :
    m.onPhones.start p o o.calls = (m.start o).onPhones := by
  simp only [Phones.start, onPhones, start, Flight.map, Flight.issue, List.map_append, List.map_map]
  congr 2
  refine List.map_congr_left fun k hk => ?_
  rw [Function.comp_apply, Operation.auth_calls hk, hauth]

theorem fresh_onPhones (m : App) (o : Operation) : m.onPhones.app.fresh o = m.fresh o := by
  rw [app_onPhones]

theorem displays_onPhones {o : Operation} (h : m.shows o = true) :
    m.onPhones.displays o = true := by
  rw [Phones.displays, app_onPhones, h, Bool.true_or]

theorem upload_onPhones {a : Uid} {u : Upload}
    (hfresh : m.fresh (.action (.uploadCartoon (some a) u)) = true) :
    run Phones.step m.onPhones [.upload (some a), .uploaded (some a) a u] =
      some (m.start (.action (.uploadCartoon (some a) u))).onPhones := by
  let n₁ : Phones (Option Uid) := { m.onPhones with state.uploads := [(some a, a)] }
  have hupload : m.onPhones.step (.upload (some a)) = some n₁ := rfl
  have hfresh₁ : n₁.app.fresh (.action (.uploadCartoon (some a) u)) = true :=
    (m.fresh_onPhones _).trans hfresh
  have huploaded : n₁.step (.uploaded (some a) a u) =
      some (m.start (.action (.uploadCartoon (some a) u))).onPhones := by
    simp only [Phones.step]
    rw [if_pos ⟨List.mem_singleton_self _, hfresh₁⟩, ← start_onPhones rfl]
    simp only [n₁, List.erase_cons_head]
    rfl
  rw [run, hupload, Option.bind_some, run, huploaded]
  rfl

theorem act_onPhones {o : Operation} (hstep : m.step (.act o) = some m') (ho : o.posts = none) :
    m.onPhones.step (.act o.auth o) = some m'.onPhones := by
  obtain ⟨hshows, hfresh, rfl⟩ := step_act hstep
  have hfresh' := (m.fresh_onPhones o).trans hfresh
  simp only [Phones.step]
  rw [if_pos ⟨rfl, ho, displays_onPhones hshows, hfresh'⟩, start_onPhones rfl]

theorem answer_onPhones {i : Nat} {r : Reply} (hstep : m.step (.answer i r) = some m') :
    m.onPhones.step (.answer i r) = some m'.onPhones := by
  refine Flight.answer_map hstep fun t _ => ?_
  have hsame : t.call.on t.call.auth = t.call := rfl
  have hauth : ∀ t' ∈ (t.exec r m.state).2, t'.call.auth = t.call.auth := by
    intro t' ht'
    obtain ⟨k, hk, rfl⟩ := List.mem_map.mp ht'
    exact Call.auth_exec hk
  have hspawned : (t.exec r m.state).2.map (fun t' => (⟨t'.call.auth, t'⟩ : Errand (Option Uid))) =
      (t.exec r m.state).2.map fun t' => ⟨t.call.auth, t'⟩ :=
    List.map_congr_left fun t' ht' => by rw [hauth t' ht']
  rw [hspawned]
  simp only [Errand.exec, id, hsame]

/-- What happens in the app happens on phones whose accounts stay. -/
theorem step_onPhones {e : Event} (hstep : m.step e = some m') :
    run Phones.step m.onPhones e.phone = some m'.onPhones ∧
      Along Phones.step Phones.Steady m.onPhones e.phone := by
  have hone : ∀ {e' : PhoneEvent (Option Uid)}, m.onPhones.step e' = some m'.onPhones →
      m.onPhones.Steady e' → run Phones.step m.onPhones [e'] = some m'.onPhones ∧
        Along Phones.step Phones.Steady m.onPhones [e'] := by
    intro e' hstep' hsteady
    refine ⟨by rw [run, hstep']; rfl, hsteady, ?_⟩
    rw [hstep']
    trivial
  cases e with
  | act o =>
    have hshows := (step_act hstep).1
    cases hposts : o.posts with
    | none =>
      -- any operation but an upload is one event of a phone
      have hphone : (Event.act o).phone = [.act o.auth o] := by
        unfold Event.phone
        split
        next a u ho =>
          obtain rfl := Event.act.inj ho
          cases hposts
        next o' hnot ho => rw [Event.act.inj ho]
        all_goals contradiction
      rw [hphone]
      refine hone (act_onPhones hstep hposts) ?_
      show m.onPhones.app.shows o = true
      rw [app_onPhones]
      exact hshows
    | some p =>
      unfold Operation.posts at hposts
      split at hposts
      next a u =>
        have hrun := upload_onPhones (step_act hstep).2.1
        rw [← (step_act hstep).2.2] at hrun
        refine ⟨hrun, Lib.along_of_forall (fun e he n => ?_) _⟩
        simp only [Event.phone, List.mem_cons, List.not_mem_nil, or_false] at he
        rcases he with rfl | rfl <;> trivial
      next => cases hposts
  | answer i r => exact hone (answer_onPhones hstep) trivial
  | fetchCartoon cartoonID r =>
    cases hstep
    refine hone ?_ trivial
    simp only [Phones.step]
    rw [app_onPhones]
    rfl
  | fetchFeedBack uid now =>
    cases hstep
    refine hone ?_ trivial
    have hauth : m.onPhones.state.auth (some uid) = some uid := rfl
    simp only [Phones.step]
    rw [if_pos hauth, app_onPhones]
    rfl

/-- The app is what phones do whose accounts change only where nothing is under way: what
they come to the app comes to, and everything that the app comes to they do. -/
theorem reachable_iff {store : Firestore} {m : App} :
    (∃ es, run App.step (opened store) es = some m) ↔
    ∃ (P : Type) (_ : DecidableEq P) (auth : P → Option Uid) (es : List (PhoneEvent P))
      (n : Phones P), run Phones.step (Phones.opened store auth) es = some n ∧
        Along Phones.step Phones.Steady (Phones.opened store auth) es ∧ n.app = m := by
  constructor
  · rintro ⟨es, hrun⟩
    have halong : Along App.step (fun _ _ => True) (opened store) es :=
      Lib.along_of_forall (fun _ _ _ => trivial) _
    have hstep : ∀ (m : App) e m', True → True → m.step e = some m' → True ∧
        run Phones.step m.onPhones e.phone = some m'.onPhones ∧
          Along Phones.step Phones.Steady m.onPhones e.phone :=
      fun _ _ _ _ _ hstep => ⟨trivial, step_onPhones hstep⟩
    obtain ⟨hrun', hsteady⟩ := run_refines hstep es trivial halong hrun
    exact ⟨Option Uid, inferInstance, id, _, m.onPhones, hrun', hsteady, app_onPhones m⟩
  · rintro ⟨P, _, auth, es, n, hrun, hsteady, rfl⟩
    have hstart : (Phones.opened store auth).Aligned :=
      ⟨fun _ he => (nomatch he), fun _ hq => (nomatch hq)⟩
    have hstep : ∀ (n : Phones P) e n', n.Aligned → n.Steady e → n.step e = some n' → n'.Aligned ∧
        run App.step n.app (Phones.image e) = some n'.app ∧
          Along App.step (fun _ _ => True) n.app (Phones.image e) :=
      fun _ _ _ h hsteady hstep => ⟨(h.step hsteady hstep).1, (h.step hsteady hstep).2,
        Lib.along_of_forall (fun _ _ _ => trivial) _⟩
    exact ⟨_, (run_refines hstep es hstart hsteady hrun).1⟩

end App

end Toontagram
