import Toontagram.Lib.Flight
import Toontagram.Model.RoundTrip

/-!
# Two notions of who is signed in

`RootTabBarController.swift`, with the sign-in, sign-out and sign-up of the
screens it presents. `Auth.auth().currentUser` changes at once; the `user` of
the tab bar is filled by the answer of a `fetchUser` that `viewDidLoad` or
`authComplete` starts for the account signed in at that moment. No such fetch
is ever cancelled, and its closure does not look at the account any more.

`authComplete` runs when the user confirms the alert that reports a successful
sign-in or sign-up. The alerts and the answers are events of their own, so they
come in any order and after any delay; nothing keeps the user from signing out
in between.

An answer is `timely` unless it is for another account than the one that is
signed in and ready and no fetch for that one is left to come.
What the screens write with the `user` is in `Account/Studio.lean`.
`Tab.Sound.step` is the step lemma: with timely answers, the profile of the
signed-in account is there or on its way. `Tab.Overtaken.of_untimely` is the
converse: an answer out of time puts another profile there, which no later answer
replaces (`Tab.Overtaken.answers`).
-/

namespace Toontagram

open Lib (Flight Store run run_inv_of_forall)
open AuthService (Registration)

/-- The store, the account that is signed in, the tab bar's `user` and the
alerts that wait for their OK, each with its account. `fetched` only records
whose fetch has brought the `user`, and `completed` whether `authComplete` has
run for the last sign-in. -/
structure Session where
  store : Firestore
  auth : Option Uid
  user : Option User
  fetched : Option Uid
  alerts : List Uid
  completed : Bool

/-- The calls that a tab bar and the screens it presents wait for. -/
inductive SessionCall where
  /-- `UserService.fetchUser(with:)` of `fetchUserData`. -/
  | fetchUser (uid : Uid)
  /-- The `setData` of `AuthService.userRegister`. -/
  | setData (r : Registration)
deriving DecidableEq, Repr

/-- What an answer does. All calls succeed. -/
def SessionCall.exec (k : SessionCall) (_ : Unit) (s : Session) : Session × List SessionCall :=
  match k with
  | .fetchUser uid =>
    match s.store.lookup ⟨.user, uid⟩ with
    | none => (s, [])
    | some dictinary => ({ s with user := some (User.init dictinary), fetched := some uid }, [])
  | .setData r =>
    ({ s with
      store := (Lib.DocWrite.setData ⟨.user, r.uid⟩ r.data).apply s.store
      alerts := s.alerts ++ [r.uid] }, [])

/-- The answer of a fetch only sets the user, if there is a profile. -/
theorem SessionCall.exec_fetchUser (uid : Uid) (s : Session) :
    (SessionCall.fetchUser uid).exec () s =
      ({ s with
        user := ((s.store.lookup ⟨.user, uid⟩).map User.init).or s.user
        fetched := ((s.store.lookup ⟨.user, uid⟩).map fun _ => uid).or s.fetched }, []) := by
  simp only [SessionCall.exec]
  split
  next hnone => simp only [hnone, Option.map_none, Option.none_or]
  next dictinary hdata => simp only [hdata, Option.map_some, Option.some_or]

/-- The account a call is about to register. -/
def SessionCall.registers : SessionCall → Option Uid
  | .fetchUser _ => none
  | .setData r => some r.uid

namespace RootTabBarController

/-- `RootTabBarController.fetchUserData()`. -/
def fetchUserData (auth : Option Uid) : List SessionCall :=
  match auth with
  | none => []
  | some uid => [.fetchUser uid]

/-- `RootTabBarController.authComplete()`. -/
def authComplete (auth : Option Uid) : List SessionCall := fetchUserData auth

end RootTabBarController

/-- A tab bar with its unanswered calls. -/
abbrev Tab := Flight Session SessionCall

/-- What can happen. `tapOK i` confirms the `i`-th alert. -/
inductive SessionEvent where
  | signIn (uid : Uid)
  | createUser (r : Registration)
  | signOut
  | tapOK (i : Nat)
  | answer (i : Nat)
deriving DecidableEq, Repr

namespace Tab

/-- `viewDidLoad`, with the account that is signed in. -/
def viewDidLoad (store : Firestore) (auth : Option Uid) : Tab :=
  ⟨⟨store, auth, none, none, [], true⟩, RootTabBarController.fetchUserData auth⟩

/-- `createUser` returns a `uid` nobody has and nobody is getting. -/
def unused (n : Tab) (uid : Uid) : Bool :=
  !n.state.store.has ⟨.user, uid⟩ && n.inflight.all fun k => k.registers != some uid

/-- One event. The accounts that can sign in are those with a profile. -/
def step (n : Tab) : SessionEvent → Option Tab
  | .signIn uid =>
    if n.state.store.has ⟨.user, uid⟩ then
      some { n with state := { n.state with
        auth := some uid, alerts := n.state.alerts ++ [uid], completed := false } }
    else none
  | .createUser r =>
    if n.unused r.uid then
      some (Flight.issue { n with state := { n.state with
        auth := some r.uid, completed := false } } [.setData r])
    else none
  | .signOut => some { n with state := { n.state with auth := none } }
  | .tapOK i =>
    (n.state.alerts[i]?).map fun uid =>
      Flight.issue { n with state := { n.state with
        alerts := n.state.alerts.eraseIdx i
        completed := n.state.completed || n.state.auth = some uid } }
        (RootTabBarController.authComplete n.state.auth)
  | .answer i => n.answer SessionCall.exec i ()

/-- `authComplete` has run for the last sign-in and every fetch is answered. -/
def Settled (n : Tab) : Prop :=
  n.state.completed = true ∧ ∀ uid, .fetchUser uid ∉ n.inflight

/-- The answer of a fetch finds `authComplete` still to run for the account that
is signed in (or nobody signed in), or it is for that account, or another fetch
for that account is still to be answered. -/
def timely (n : Tab) : SessionEvent → Bool
  | .answer i =>
    match n.inflight[i]?, n.state.auth with
    | some (.fetchUser uid), some b =>
      !n.state.completed || uid = b || (n.inflight.eraseIdx i).contains (.fetchUser b)
    | _, _ => true
  | _ => true

/-! ## The invariant -/

/-- Every profile names its account, as `Registration.data` does. -/
def Profiled (store : Firestore) : Prop :=
  ∀ (uid : Uid) (data : Dictionary), store.lookup ⟨.user, uid⟩ = some data →
    data.string? "uid" = some uid

/-- The tab bar has the profile of the account. -/
def Shows (s : Session) (uid : Uid) : Prop :=
  ∃ data, s.store.lookup ⟨.user, uid⟩ = some data ∧ s.user = some (User.init data)

/-- Profiles name their account, an account is registered once, and the
profile of the one that is signed in and ready is there or on its way. -/
structure Sound (n : Tab) : Prop where
  profiled : Profiled n.state.store
  alerted : ∀ uid ∈ n.state.alerts, n.state.store.has ⟨.user, uid⟩ = true
  unused : ∀ uid ∈ n.inflight.filterMap SessionCall.registers,
    n.state.store.has ⟨.user, uid⟩ = false
  once : (n.inflight.filterMap SessionCall.registers).Nodup
  current : n.state.completed = true → ∀ b, n.state.auth = some b →
    n.state.store.has ⟨.user, b⟩ = true ∧
      (.fetchUser b ∈ n.inflight ∨ Shows n.state b)

theorem registers_fetchUserData (auth : Option Uid) :
    (RootTabBarController.fetchUserData auth).filterMap SessionCall.registers = [] := by
  cases auth <;> rfl

/-- A tab bar over profiles that name their accounts. -/
theorem Sound.viewDidLoad {store : Firestore} {auth : Option Uid} (hstore : Profiled store)
    (hauth : ∀ uid, auth = some uid → store.has ⟨.user, uid⟩ = true) :
    (viewDidLoad store auth).Sound := by
  refine ⟨hstore, fun uid h => absurd h List.not_mem_nil, fun uid h => ?_, ?_,
    fun _ b hb => ⟨hauth b hb, Or.inl ?_⟩⟩
  · rw [Tab.viewDidLoad, registers_fetchUserData] at h
    cases h
  · rw [Tab.viewDidLoad, registers_fetchUserData]
    exact List.nodup_nil
  · have hb : auth = some b := hb
    rw [hb]
    exact List.mem_singleton_self _

section step

variable {n n' : Tab}

theorem Sound.signIn (h : n.Sound) {uid : Uid} (hstep : n.step (.signIn uid) = some n') :
    n'.Sound := by
  simp only [Tab.step] at hstep
  split at hstep
  next hhas =>
    obtain rfl := Option.some.inj hstep
    refine ⟨h.profiled, fun v hv => ?_, h.unused, h.once, fun hc => by cases hc⟩
    rcases List.mem_append.mp hv with hv | hv
    · exact h.alerted v hv
    · rw [List.mem_singleton.mp hv]
      exact hhas
  next => cases hstep

theorem Sound.createUser (h : n.Sound) {r : Registration}
    (hstep : n.step (.createUser r) = some n') : n'.Sound := by
  simp only [Tab.step] at hstep
  split at hstep
  next hunused =>
    obtain rfl := Option.some.inj hstep
    rw [Tab.unused, Bool.and_eq_true, List.all_eq_true] at hunused
    obtain ⟨hnone, hother⟩ := hunused
    have hregisters : (n.inflight ++ [SessionCall.setData r]).filterMap SessionCall.registers =
        n.inflight.filterMap SessionCall.registers ++ [r.uid] := by
      rw [List.filterMap_append]
      rfl
    refine ⟨h.profiled, h.alerted, fun uid hmem => ?_, ?_, fun hc => by cases hc⟩
    · rw [Flight.issue, hregisters] at hmem
      rcases List.mem_append.mp hmem with hmem | hmem
      · exact h.unused uid hmem
      · rw [List.mem_singleton.mp hmem]
        exact (Bool.not_eq_true' _).mp hnone
    · show ((n.inflight ++ [SessionCall.setData r]).filterMap SessionCall.registers).Nodup
      rw [hregisters, List.nodup_append]
      refine ⟨h.once, List.nodup_singleton _, fun a ha b hb hab => ?_⟩
      obtain ⟨k, hk, hreg⟩ := List.mem_filterMap.mp ha
      have := hother k hk
      rw [hreg, hab, List.mem_singleton.mp hb] at this
      simp at this
  next => cases hstep

theorem Sound.signOut (h : n.Sound) (hstep : n.step .signOut = some n') : n'.Sound := by
  obtain rfl := Option.some.inj hstep
  exact ⟨h.profiled, h.alerted, h.unused, h.once, fun _ b hb => by cases hb⟩

theorem Sound.tapOK (h : n.Sound) {i : Nat} (hstep : n.step (.tapOK i) = some n') :
    n'.Sound := by
  obtain ⟨uid, huid, rfl⟩ := Option.map_eq_some_iff.mp hstep
  have hregisters : (n.inflight ++ RootTabBarController.fetchUserData n.state.auth).filterMap
      SessionCall.registers = n.inflight.filterMap SessionCall.registers := by
    rw [List.filterMap_append, registers_fetchUserData, List.append_nil]
  refine ⟨h.profiled, fun v hv => h.alerted v (List.mem_of_mem_eraseIdx hv), fun v hv => ?_, ?_,
    fun hc b hb => ?_⟩
  · exact h.unused v (hregisters ▸ hv)
  · exact hregisters ▸ h.once
  · have hb : n.state.auth = some b := hb
    have hfetch : .fetchUser b ∈
        n.inflight ++ RootTabBarController.fetchUserData n.state.auth := by
      rw [hb]
      exact List.mem_append_right _ (List.mem_singleton_self _)
    refine ⟨?_, Or.inl hfetch⟩
    -- `authComplete` has run before, or the alert is the signed-in account's
    have hc : (n.state.completed || n.state.auth = some uid) = true := hc
    rw [Bool.or_eq_true] at hc
    rcases hc with hc | hc
    · exact (h.current hc b hb).1
    · have huid' : b = uid := by
        have := of_decide_eq_true hc
        rw [hb] at this
        exact Option.some.inj this
      exact huid' ▸ h.alerted uid (List.mem_of_getElem? huid)

/-- The answer of a fetch. -/
theorem Sound.answer_fetchUser (h : n.Sound) {pre post : List SessionCall} {uid : Uid}
    (hin : n.inflight = pre ++ .fetchUser uid :: post)
    (htimely : ∀ b, n.state.auth = some b → n.state.completed = true →
      uid = b ∨ .fetchUser b ∈ pre ++ post) :
    Tab.Sound ⟨((SessionCall.fetchUser uid).exec () n.state).1, pre ++ post ++
      ((SessionCall.fetchUser uid).exec () n.state).2⟩ := by
  have hregisters : n.inflight.filterMap SessionCall.registers =
      (pre ++ post).filterMap SessionCall.registers := by
    rw [hin, List.filterMap_append, List.filterMap_append]
    rfl
  have hunused := h.unused
  have honce := h.once
  rw [hregisters] at hunused honce
  rw [SessionCall.exec_fetchUser, List.append_nil]
  refine ⟨h.profiled, h.alerted, hunused, honce, fun hc b hb => ?_⟩
  obtain ⟨hprofile, -⟩ := h.current hc b hb
  refine ⟨hprofile, ?_⟩
  rcases htimely b hb hc with rfl | hmem
  · -- the signed-in account has a profile
    obtain ⟨data, hdata⟩ := Option.isSome_iff_exists.mp hprofile
    exact Or.inr ⟨data, hdata, by rw [hdata, Option.map_some, Option.some_or]⟩
  · exact Or.inl hmem

/-- A registration sets a profile that names its account. -/
theorem profiled_setData {store : Firestore} (h : Profiled store) (r : Registration) :
    Profiled ((Lib.DocWrite.setData ⟨.user, r.uid⟩ r.data).apply store) := by
  intro uid data hdata
  rw [Store.lookup_apply_setData] at hdata
  split at hdata
  next href =>
    rw [← (Lib.DocRef.mk.inj href).2, ← Option.some.inj hdata]
    rfl
  next => exact h uid data hdata

/-- The profile of a new account touches no other. -/
theorem lookup_setData_of_new {store : Firestore} {r : Registration}
    (hnew : store.has ⟨.user, r.uid⟩ = false) {uid : Uid}
    (hhas : store.has ⟨.user, uid⟩ = true) :
    ((Lib.DocWrite.setData ⟨.user, r.uid⟩ r.data).apply store).lookup ⟨.user, uid⟩ =
      store.lookup ⟨.user, uid⟩ := by
  refine Store.lookup_apply_ne fun href => ?_
  rw [← (Lib.DocRef.mk.inj href).2, hnew] at hhas
  cases hhas

/-- The answer of a registration: the new profile is there, and the account is
registered no more. -/
theorem Sound.answer_setData (h : n.Sound) {pre post : List SessionCall} {r : Registration}
    (hin : n.inflight = pre ++ .setData r :: post) :
    Tab.Sound ⟨((SessionCall.setData r).exec () n.state).1, pre ++ post ++
      ((SessionCall.setData r).exec () n.state).2⟩ := by
  have hregisters : n.inflight.filterMap SessionCall.registers =
      pre.filterMap SessionCall.registers ++ r.uid :: post.filterMap SessionCall.registers := by
    rw [hin, List.filterMap_append]
    rfl
  have hunused := h.unused
  have honce := h.once
  rw [hregisters] at hunused honce
  have hnew : n.state.store.has ⟨.user, r.uid⟩ = false :=
    hunused r.uid (List.mem_append_right _ List.mem_cons_self)
  have hperm : (r.uid :: (pre ++ post).filterMap SessionCall.registers).Nodup := by
    rw [List.filterMap_append]
    exact List.nodup_middle.mp honce
  have hkeep : ∀ uid, n.state.store.has ⟨.user, uid⟩ = true →
      Store.has ((Lib.DocWrite.setData ⟨.user, r.uid⟩ r.data).apply n.state.store)
        ⟨.user, uid⟩ = true := by
    intro uid hhas
    rw [Store.has, lookup_setData_of_new hnew hhas]
    exact hhas
  simp only [SessionCall.exec, List.append_nil]
  refine ⟨profiled_setData h.profiled r, fun uid hmem => ?_, fun uid hmem => ?_,
    (List.nodup_cons.mp hperm).2, fun hc b hb => ?_⟩
  · rcases List.mem_append.mp hmem with hmem | hmem
    · exact hkeep uid (h.alerted uid hmem)
    · rw [List.mem_singleton.mp hmem]
      exact Store.has_apply_setData_self ..
  · have hne : r.uid ≠ uid := fun e => (List.nodup_cons.mp hperm).1 (e ▸ hmem)
    have hother : (⟨.user, r.uid⟩ : DocRef) ≠ ⟨.user, uid⟩ := by simpa using hne
    refine (Store.has_apply_ne hother).trans (hunused uid ?_)
    rw [List.filterMap_append] at hmem
    rcases List.mem_append.mp hmem with hmem | hmem
    · exact List.mem_append_left _ hmem
    · exact List.mem_append_right _ (List.mem_cons_of_mem _ hmem)
  · obtain ⟨hhas, hcurrent⟩ := h.current hc b hb
    refine ⟨hkeep b hhas, ?_⟩
    rcases hcurrent with hmem | ⟨data, hdata, huser⟩
    · left
      rw [hin] at hmem
      rcases List.mem_append.mp hmem with hmem | hmem
      · exact List.mem_append_left _ hmem
      · rcases List.mem_cons.mp hmem with heq | hmem
        · cases heq
        · exact List.mem_append_right _ hmem
    · exact Or.inr ⟨data, (lookup_setData_of_new hnew hhas).trans hdata, huser⟩

/-- Without an answer the profiles and the user stay as they are. -/
theorem step_of_not_answer {e : SessionEvent} (he : ∀ i, e ≠ .answer i)
    (hstep : n.step e = some n') :
    n'.state.store = n.state.store ∧ n'.state.user = n.state.user ∧
      n'.state.fetched = n.state.fetched := by
  cases e with
  | signIn uid =>
    obtain ⟨-, hstep⟩ := Option.ite_none_right_eq_some.mp hstep
    obtain rfl := Option.some.inj hstep
    exact ⟨rfl, rfl, rfl⟩
  | createUser r =>
    obtain ⟨-, hstep⟩ := Option.ite_none_right_eq_some.mp hstep
    obtain rfl := Option.some.inj hstep
    exact ⟨rfl, rfl, rfl⟩
  | signOut =>
    obtain rfl := Option.some.inj hstep
    exact ⟨rfl, rfl, rfl⟩
  | tapOK i =>
    obtain ⟨uid, -, rfl⟩ := Option.map_eq_some_iff.mp hstep
    exact ⟨rfl, rfl, rfl⟩
  | answer i => exact absurd rfl (he i)

/-- A profile that is there stays as it is. -/
theorem Sound.lookup_kept (h : n.Sound) {e : SessionEvent} (hstep : n.step e = some n') {uid : Uid}
    {data : Dictionary} (hdata : n.state.store.lookup ⟨.user, uid⟩ = some data) :
    n'.state.store.lookup ⟨.user, uid⟩ = some data := by
  by_cases he : ∀ i, e ≠ .answer i
  · rw [(step_of_not_answer he hstep).1]
    exact hdata
  · push Not at he
    obtain ⟨i, rfl⟩ := he
    obtain ⟨pre, k, post, hin, -, rfl⟩ := Flight.answer_cases hstep
    cases k with
    | fetchUser v =>
      rw [SessionCall.exec_fetchUser]
      exact hdata
    | setData r =>
      have hnew : n.state.store.has ⟨.user, r.uid⟩ = false := by
        refine h.unused r.uid ?_
        rw [hin, List.filterMap_append]
        exact List.mem_append_right _ List.mem_cons_self
      have hhas : n.state.store.has ⟨.user, uid⟩ = true := by
        rw [Store.has, hdata]
        rfl
      exact (lookup_setData_of_new hnew hhas).trans hdata

/-- Writes to other collections leave the tab bar sound. -/
theorem Sound.withStore (h : n.Sound) {store : Firestore}
    (hstore : ∀ uid, store.lookup ⟨.user, uid⟩ = n.state.store.lookup ⟨.user, uid⟩) :
    Tab.Sound { n with state := { n.state with store := store } } := by
  have hhas : ∀ uid, store.has ⟨.user, uid⟩ = n.state.store.has ⟨.user, uid⟩ := by
    intro uid
    rw [Store.has, hstore, Store.has]
  refine ⟨fun uid data hdata => h.profiled uid data ((hstore uid).symm.trans hdata),
    fun uid hmem => (hhas uid).trans (h.alerted uid hmem),
    fun uid hmem => (hhas uid).trans (h.unused uid hmem), h.once, fun hc b hb => ?_⟩
  obtain ⟨hprofile, hcurrent⟩ := h.current hc b hb
  refine ⟨(hhas b).trans hprofile, hcurrent.imp_right ?_⟩
  rintro ⟨data, hdata, huser⟩
  exact ⟨data, (hstore b).trans hdata, huser⟩

/-- One event, if it is a timely answer or no answer. -/
theorem Sound.step (h : n.Sound) {e : SessionEvent} (htimely : n.timely e = true)
    (hstep : n.step e = some n') : n'.Sound := by
  cases e with
  | signIn uid => exact h.signIn hstep
  | createUser r => exact h.createUser hstep
  | signOut => exact h.signOut hstep
  | tapOK i => exact h.tapOK hstep
  | answer i =>
    obtain ⟨pre, k, post, hin, hi, rfl⟩ := Flight.answer_cases hstep
    cases k with
    | setData r => exact h.answer_setData hin
    | fetchUser uid =>
      refine h.answer_fetchUser hin fun b hb hc => ?_
      rw [Tab.timely, hin, Flight.getElem?_answered hi, Flight.eraseIdx_answered hi, hb, hc]
        at htimely
      simpa using htimely

end step

/-! ## An answer out of time -/

/-- The user of the tab bar is not the account that is signed in and ready, and
no fetch will change that. -/
structure Overtaken (n : Tab) (b : Uid) : Prop where
  profiled : Profiled n.state.store
  auth : n.state.auth = some b
  completed : n.state.completed = true
  fetched : .fetchUser b ∉ n.inflight
  user : ∀ user, n.state.user = some user → user.uid ≠ b

section untimely

variable {n n' : Tab} {b : Uid}

/-- What an answer of a fetch leaves as the user of the tab bar. -/
theorem user_fetchUser {s : Session} {uid : Uid} (hstore : Profiled s.store) {user : User}
    (huser : ((SessionCall.fetchUser uid).exec () s).1.user = some user) :
    s.user = some user ∨ user.uid = uid := by
  rw [SessionCall.exec_fetchUser] at huser
  rcases Option.or_eq_some_iff.mp huser with huser | ⟨-, huser⟩
  · right
    obtain ⟨data, hdata, rfl⟩ := Option.map_eq_some_iff.mp huser
    rw [User.init, hstore uid data hdata]
    rfl
  · exact Or.inl huser

/-- An answer that is not timely brings the profile of another account. -/
theorem Overtaken.of_untimely (h : n.Sound) {i : Nat} (huntimely : n.timely (.answer i) = false)
    {uid : Uid} (hk : n.inflight[i]? = some (.fetchUser uid))
    (hprofile : n.state.store.has ⟨.user, uid⟩ = true)
    (hstep : n.step (.answer i) = some n') : ∃ b, n'.Overtaken b := by
  obtain ⟨pre, k, post, hin, hi, rfl⟩ := Flight.answer_cases hstep
  obtain rfl : k = .fetchUser uid := by
    rw [hin, Flight.getElem?_answered hi] at hk
    exact Option.some.inj hk
  rw [Tab.timely, hin, Flight.getElem?_answered hi, Flight.eraseIdx_answered hi] at huntimely
  cases hauth : n.state.auth with
  | none => simp [hauth] at huntimely
  | some b =>
    simp only [hauth, Bool.or_eq_false_iff, Bool.not_eq_false', decide_eq_false_iff_not,
      List.contains_eq_mem] at huntimely
    obtain ⟨⟨hcompleted, hne⟩, hmem⟩ := huntimely
    obtain ⟨data, hdata⟩ := Option.isSome_iff_exists.mp hprofile
    refine ⟨b, ?_⟩
    rw [SessionCall.exec_fetchUser, hdata, Option.map_some, Option.some_or, List.append_nil]
    refine ⟨h.profiled, hauth, hcompleted, hmem, fun user huser => ?_⟩
    have huid : (User.init data).uid = uid := by
      rw [User.init, h.profiled uid data hdata]
      rfl
    rw [← Option.some.inj huser, huid]
    exact hne

/-- The other answers leave it at that. -/
theorem Overtaken.answer (h : n.Overtaken b) {i : Nat} (hstep : n.step (.answer i) = some n') :
    n'.Overtaken b := by
  obtain ⟨pre, k, post, hin, hi, rfl⟩ := Flight.answer_cases hstep
  have hfetched := h.fetched
  rw [hin, List.mem_append, List.mem_cons, not_or, not_or] at hfetched
  obtain ⟨hpre, hk, hpost⟩ := hfetched
  have hrest : .fetchUser b ∉ pre ++ post := by
    rw [List.mem_append, not_or]
    exact ⟨hpre, hpost⟩
  cases k with
  | fetchUser uid =>
    -- no fetch for `b` is in flight, so this one is for another account
    have hne : uid ≠ b := fun e => hk (by rw [e])
    have hother : ∀ user,
        ((SessionCall.fetchUser uid).exec () n.state).1.user = some user → user.uid ≠ b := by
      intro user huser
      rcases user_fetchUser h.profiled huser with huser | huid
      · exact h.user user huser
      · rw [huid]
        exact hne
    rw [SessionCall.exec_fetchUser] at hother ⊢
    rw [List.append_nil]
    exact ⟨h.profiled, h.auth, h.completed, hrest, hother⟩
  | setData r =>
    simp only [SessionCall.exec, List.append_nil]
    exact ⟨profiled_setData h.profiled r, h.auth, h.completed, hrest, h.user⟩

/-- So it stays as long as there are answers only. -/
theorem Overtaken.answers (h : n.Overtaken b) {es : List SessionEvent}
    (hes : ∀ e ∈ es, ∃ i, e = .answer i) (hrun : run Tab.step n es = some n') :
    n'.Overtaken b := by
  refine run_inv_of_forall (P := fun m => m.Overtaken b) ?_ hes h hrun
  intro m e m' hm he hstep
  obtain ⟨i, rfl⟩ := he
  exact hm.answer hstep

end untimely

end Tab

/-- The store after some registrations. -/
def registered (rs : List Registration) : Firestore :=
  rs.foldl (fun s r => (Lib.DocWrite.setData ⟨.user, r.uid⟩ r.data).apply s) ∅

theorem registered_profiled (rs : List Registration) : Tab.Profiled (registered rs) := by
  have hfold : ∀ (rs : List Registration) (s : Firestore), Tab.Profiled s → Tab.Profiled
      (rs.foldl (fun s r => (Lib.DocWrite.setData ⟨.user, r.uid⟩ r.data).apply s) s) := by
    intro rs
    induction rs with
    | nil => exact fun s hs => hs
    | cons r rs ih => exact fun s hs => ih _ (Tab.profiled_setData hs r)
  exact hfold rs ∅ fun uid data h => by cases h

end Toontagram
