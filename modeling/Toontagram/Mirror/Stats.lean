import Toontagram.Lib.Census
import Toontagram.Mirror.Fleet

/-!
# The numbers on a profile

`UserService.fetchUserStats` counts the fans of an account, the accounts it follows
and its cartoons in three queries, each asked from the closure of the one before it,
so each sees the store of another moment. The numbers of fans and of stars come from
different documents, which different devices write: `stats_near` says how far they
can be from the follows the accounts have made, at any moment of any run, and
`sum_fanVaue` that they add up where all devices have come to rest.
-/

namespace Toontagram

open Lib (Clients Store landed run)

/-- `UserStats`. -/
structure UserStats where
  fanVaue : Nat
  starValue : Nat
  cartoons : Nat
deriving DecidableEq, Repr

/-- `snapshot?.documents.count ?? 0`; the store is that of the moment the query is
served, and there is no snapshot when it fails. -/
def Query.count (q : Query) (snapshot : Option Firestore) : Nat :=
  (snapshot.map fun s => (q.documents s).length).getD 0

/-- `UserService.fetchUserStats(uid:completion:)`: what its completion gets, for the
answers of the three queries. -/
def UserService.fetchUserStats (uid : Uid) (fans stars cartoons : Option Firestore) :
    UserStats where
  fanVaue := Query.count { collection := .userFan uid } fans
  starValue := Query.count { collection := .userStar uid } stars
  cartoons := Query.count ⟨.cartoon, some ("uid", .string uid)⟩ cartoons

namespace UserService

theorem fanVaue_eq (uid : Uid) (s : Firestore) (stars cartoons : Option Firestore) :
    (fetchUserStats uid (some s) stars cartoons).fanVaue =
      {me | s.has ⟨.userFan uid, me⟩ = true}.ncard :=
  (s.ncard_has (.userFan uid)).symm

theorem starValue_eq (uid : Uid) (s : Firestore) (fans cartoons : Option Firestore) :
    (fetchUserStats uid fans (some s) cartoons).starValue =
      {you | s.has ⟨.userStar uid, you⟩ = true}.ncard :=
  (s.ncard_has (.userStar uid)).symm

end UserService

namespace Fleet

/-- After the events `es` the account `me` follows `you`, as far as it is concerned. -/
def Follows (store : Firestore) (es : List (Uid × DeviceEvent)) (me you : Uid) : Prop :=
  landed (store.has ⟨.userStar me, you⟩) (es.filterMap (leaves me (.star you))) = true

/-- The accounts whose devices have something left to do. -/
def busy (f : Fleet) : Set Uid := {me | ¬ (f.device me).Idle}

variable {store : Firestore} {es : List (Uid × DeviceEvent)} {f : Fleet}

/-- Only finitely many devices are ever busy. -/
theorem busy_finite (hrun : run step (opened store) es = some f) : f.busy.Finite := by
  refine (es.map Prod.fst).toFinset.finite_toSet.subset fun me hme => ?_
  by_contra hnot
  refine hme ?_
  rw [device, fresh_of_run hrun me hnot]
  exact ⟨⟨rfl, rfl⟩, rfl, rfl⟩

/-- The documents of an idle device say whom its account follows. -/
theorem follows_iff (hagree : ∀ me (p : Pair), store.has (p.first me) = store.has (p.second me))
    (hrun : run step (opened store) es = some f) {me : Uid} (hidle : (f.device me).Idle)
    (you : Uid) : (f.state.has ⟨.userStar me, you⟩ = true ↔ Follows store es me you) ∧
      (f.state.has ⟨.userFan you, me⟩ = true ↔ Follows store es me you) := by
  obtain ⟨hfirst, hsecond⟩ := mirrored (hagree me) hrun hidle (.star you)
  exact ⟨iff_of_eq (congrArg (· = true) hfirst), iff_of_eq (congrArg (· = true) hsecond)⟩

/-- Apart from the busy accounts, the fans of an account are those who follow it. -/
theorem fan_iff_follows
    (hagree : ∀ me (p : Pair), store.has (p.first me) = store.has (p.second me))
    (hrun : run step (opened store) es = some f) (uid : Uid) {me : Uid} (hme : me ∉ f.busy) :
    f.state.has ⟨.userFan uid, me⟩ = true ↔ Follows store es me uid :=
  (follows_iff hagree hrun (not_not.mp hme) uid).2

theorem finite_follows
    (hagree : ∀ me (p : Pair), store.has (p.first me) = store.has (p.second me))
    (hrun : run step (opened store) es = some f) (uid : Uid) :
    {me | Follows store es me uid}.Finite := by
  refine ((f.state.finite_has (.userFan uid)).union (busy_finite hrun)).subset fun me hme => ?_
  by_cases hbusy : me ∈ f.busy
  · exact Or.inr hbusy
  · exact Or.inl ((fan_iff_follows hagree hrun uid hbusy).mpr hme)

/-- A profile opened in the middle of anything: the number of fans is off by no more
than the number of accounts that are busy when the first query is served, and the
number of stars is exact if the account itself is idle when the second one is. -/
theorem stats_near {es₁ es₂ : List (Uid × DeviceEvent)} {f₁ f₂ : Fleet}
    (hagree : ∀ me (p : Pair), store.has (p.first me) = store.has (p.second me))
    (hrun₁ : run step (opened store) es₁ = some f₁) (hrun₂ : run step f₁ es₂ = some f₂)
    (uid : Uid) (cartoons : Option Firestore) :
    let stats := UserService.fetchUserStats uid (some f₁.state) (some f₂.state) cartoons
    stats.fanVaue ≤ {me | Follows store es₁ me uid}.ncard + f₁.busy.ncard ∧
    {me | Follows store es₁ me uid}.ncard ≤ stats.fanVaue + f₁.busy.ncard ∧
    ((f₂.device uid).Idle →
      stats.starValue = {you | Follows store (es₁ ++ es₂) uid you}.ncard) := by
  intro stats
  have hbusy := busy_finite hrun₁
  have hfan : stats.fanVaue = {me | f₁.state.has ⟨.userFan uid, me⟩ = true}.ncard :=
    UserService.fanVaue_eq uid f₁.state _ _
  have hstar : stats.starValue = {you | f₂.state.has ⟨.userStar uid, you⟩ = true}.ncard :=
    UserService.starValue_eq uid f₂.state _ _
  rw [hfan, hstar]
  refine ⟨?_, ?_, fun hidle => ?_⟩
  · exact Lib.ncard_le_of_agree (fun me hme => (fan_iff_follows hagree hrun₁ uid hme).mp)
      (finite_follows hagree hrun₁ uid) hbusy
  · exact Lib.ncard_le_of_agree (fun me hme => (fan_iff_follows hagree hrun₁ uid hme).mpr)
      (f₁.state.finite_has _) hbusy
  · have hrun : run step (opened store) (es₁ ++ es₂) = some f₂ := by
      rw [Lib.run_append, hrun₁, Option.bind_some, hrun₂]
    congr 1
    ext you
    exact (follows_iff hagree hrun hidle you).1

/-- A profile opened while the reader's second write is on its way. -/
theorem stats_near_race : ∃ f₁ f₂, run step (opened ∅) (race.take 8) = some f₁ ∧
    run step f₁ (race.drop 8) = some f₂ ∧
    (UserService.fetchUserStats "author" (some f₁.state) (some f₂.state) none).fanVaue ≤
      {me | Follows ∅ (race.take 8) me "author"}.ncard + f₁.busy.ncard := by
  have hrun₁ : run step (opened ∅) (race.take 8) =
      some ((run step (opened ∅) (race.take 8)).get (by decide)) := (Option.some_get _).symm
  have hrun₂ : run step ((run step (opened ∅) (race.take 8)).get (by decide)) (race.drop 8) =
      some ((run step ((run step (opened ∅) (race.take 8)).get (by decide)) (race.drop 8)).get
        (by decide)) := (Option.some_get _).symm
  exact ⟨_, _, hrun₁, hrun₂,
    (stats_near (fun me p => by cases p <;> rfl) hrun₁ hrun₂ "author" none).1⟩

/-- When all devices have come to rest, the fans of all accounts are as many as the
accounts they follow. -/
theorem sum_fanVaue {points : Finset Uid}
    (hagree : ∀ me (p : Pair), store.has (p.first me) = store.has (p.second me))
    (hrun : run step (opened store) es = some f) (hidle : ∀ me, (f.device me).Idle)
    (hpoints : ∀ me you, Follows store es me you → me ∈ points ∧ you ∈ points) :
    let stats uid := UserService.fetchUserStats uid (some f.state) (some f.state) (some f.state)
    ∑ uid ∈ points, (stats uid).fanVaue = ∑ uid ∈ points, (stats uid).starValue := by
  intro stats
  have hfan : ∀ uid, (stats uid).fanVaue = {me | Follows store es me uid}.ncard := by
    intro uid
    refine (UserService.fanVaue_eq uid f.state _ _).trans (congrArg Set.ncard ?_)
    ext me
    exact (follows_iff hagree hrun (hidle me) uid).2
  have hstar : ∀ uid, (stats uid).starValue = {you | Follows store es uid you}.ncard := by
    intro uid
    refine (UserService.starValue_eq uid f.state _ _).trans (congrArg Set.ncard ?_)
    ext you
    exact (follows_iff hagree hrun (hidle uid) you).1
  simp only [hfan, hstar]
  exact Lib.sum_ncard_comm hpoints

/-- Nobody else follows anybody in the race. -/
theorem follows_race {me you : Uid} (h : Follows ∅ race me you) :
    me ∈ ({"reader", "author"} : Finset Uid) ∧ you ∈ ({"reader", "author"} : Finset Uid) := by
  by_cases hreader : "reader" = me
  · subst hreader
    by_cases hyou : you = "author"
    · simp [hyou]
    · simp [Follows, race, leaves, DeviceEvent.leaves, ServiceCall.leaves, hyou, Store.has] at h
  · by_cases hauthor : "author" = me
    · subst hauthor
      by_cases hyou : you = "reader"
      · simp [hyou]
      · simp [Follows, race, leaves, DeviceEvent.leaves, ServiceCall.leaves, hyou, Store.has] at h
    · simp [Follows, race, leaves, hreader, hauthor, Store.has] at h

theorem sum_fanVaue_race : ∃ f, run step (opened ∅) race = some f ∧
    let stats uid := UserService.fetchUserStats uid (some f.state) (some f.state) (some f.state)
    ∑ uid ∈ {"reader", "author"}, (stats uid).fanVaue =
      ∑ uid ∈ {"reader", "author"}, (stats uid).starValue := by
  obtain ⟨f, hrun, hidle⟩ := race_idle
  exact ⟨f, hrun, sum_fanVaue (fun me p => by cases p <;> rfl) hrun hidle
    fun me you => follows_race⟩

end Fleet

end Toontagram
