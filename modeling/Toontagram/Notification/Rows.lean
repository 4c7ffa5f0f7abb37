import Toontagram.Lib.Flight
import Toontagram.Lib.Run
import Toontagram.Api.Services
import Toontagram.Api.TimeOrder

/-!
# The rows of the notification screen

`FeedBackTableViewController.fetchFeedback`, `checkFeedBack` and `refreshView`. A
fetch replaces the list and asks for every `.fan` row whether the sender is
followed; each answer looks its row up again, by the notification's id, in
whatever list is there by then. A refresh empties the list and fetches once
more, without waiting for anything.

The inbox and the follows do not change during a run, and all reads succeed.
`Sound` links the answers to come to the list: a row that is not marked yet, and
should be, has one on its way. `rows_settled` is what is left when all have come.
-/

namespace Toontagram

open Lib (Flight run run_inv)

/-- What the table view controller keeps. `crashed` is set where an index of the
list is out of range. -/
structure FeedBackTable where
  feedbacks : List FeedBack
  crashed : Bool := false
deriving DecidableEq

/-- The reads of the screen, each with what its closure captures. -/
inductive FeedBackRead where
  | fetchFeedBack
  | checkUserFans (feedback : FeedBack)
deriving DecidableEq

/-- `FeedBackService.fetchFeedBack(completion:)`: what its completion gets. -/
def FeedBackService.fetchFeedBack (s : Firestore) (uid : Uid) (now : Timestamp) : List FeedBack :=
  (orderedByTime s (.userFeedback uid)).map fun doc => FeedBack.init now doc.2

/-- `UserService.checkUserFans(uid:completion:)`: what its completion gets. -/
def UserService.checkUserFans (s : Firestore) (currentUid uid : Uid) : Bool :=
  s.has ⟨.userStar currentUid, uid⟩

namespace FeedBackTableViewController

/-- The closure of `checkUserFans` in `checkFeedBack`. -/
def checked (t : FeedBackTable) (feedback : FeedBack) (fan : Bool) : FeedBackTable :=
  match t.feedbacks.findIdx? fun row => row.id = feedback.id with
  | none => t
  | some index =>
    match t.feedbacks[index]? with
    | none => { t with crashed := true }
    | some row => { t with feedbacks := t.feedbacks.set index { row with userFan := fan } }

/-- `checkFeedBack()`. -/
def checkFeedBack (feedbacks : List FeedBack) : List FeedBackRead :=
  (feedbacks.filter fun feedback => feedback.type = .fan).map .checkUserFans

/-- What the answer of a read does, at the time `now`. -/
def answered (s : Firestore) (me : Uid) (k : FeedBackRead) (now : Timestamp) (t : FeedBackTable) :
    FeedBackTable × List FeedBackRead :=
  match k with
  | .fetchFeedBack =>
    let feedbacks := FeedBackService.fetchFeedBack s me now
    ({ t with feedbacks := feedbacks }, checkFeedBack feedbacks)
  | .checkUserFans feedback =>
    (checked t feedback (UserService.checkUserFans s me feedback.uid), [])

end FeedBackTableViewController

/-- The screen with its unanswered reads. -/
abbrev FeedBackScreen := Flight FeedBackTable FeedBackRead

inductive FeedBackEvent where
  | refreshView
  | answer (i : Nat) (now : Timestamp)
deriving DecidableEq

namespace FeedBackScreen

/-- `viewDidLoad()`. -/
def viewDidLoad : FeedBackScreen := ⟨{ feedbacks := [] }, [.fetchFeedBack]⟩

/-- One event on the screen of `me`. -/
def step (s : Firestore) (me : Uid) (t : FeedBackScreen) : FeedBackEvent → Option FeedBackScreen
  | .refreshView =>
    some (Flight.issue { t with state := { t.state with feedbacks := [] } } [.fetchFeedBack])
  | .answer i now => t.answer (FeedBackTableViewController.answered s me) i now

end FeedBackScreen

/-! ## One answer -/

/-- The row with the follow state `fan`. -/
def FeedBack.marked (fan : Bool) (row : FeedBack) : FeedBack := { row with userFan := fan }

@[simp] theorem FeedBack.marked_id (fan : Bool) (row : FeedBack) : (row.marked fan).id = row.id :=
  rfl

/-- With different ids the closure changes the row of its own id and no other,
and its index is in range. -/
theorem FeedBackTableViewController.checked_eq {t : FeedBackTable}
    (hnodup : (t.feedbacks.map (·.id)).Nodup) (feedback : FeedBack) (fan : Bool) :
    checked t feedback fan = { t with feedbacks := t.feedbacks.map fun row =>
      if row.id = feedback.id then row.marked fan else row } := by
  unfold checked
  split
  next hnone =>
    have hother : ∀ row ∈ t.feedbacks, row.id ≠ feedback.id := by
      simpa using List.findIdx?_eq_none_iff.mp hnone
    have hmap : t.feedbacks.map (fun row =>
        if row.id = feedback.id then row.marked fan else row) = t.feedbacks :=
      (List.map_congr_left fun row hrow => if_neg (hother row hrow)).trans (List.map_id _)
    rw [hmap]
  next index hindex =>
    obtain ⟨hlt, hid, -⟩ := List.findIdx?_eq_some_iff_getElem.mp hindex
    rw [List.getElem?_eq_getElem hlt]
    have hid : t.feedbacks[index].id = feedback.id := of_decide_eq_true hid
    have hinj := List.nodup_iff_injective_getElem.mp hnodup
    have hset : t.feedbacks.set index (t.feedbacks[index].marked fan) =
        t.feedbacks.map fun row => if row.id = feedback.id then row.marked fan else row := by
      refine List.ext_getElem (by simp) fun j hj hj' => ?_
      have hj : j < t.feedbacks.length := by simpa using hj
      rw [List.getElem_set, List.getElem_map]
      by_cases hij : index = j
      · subst hij
        rw [if_pos rfl, if_pos hid]
      · have hne : t.feedbacks[j].id ≠ feedback.id := by
          intro hsame
          have hpos := @hinj ⟨index, by simpa using hlt⟩ ⟨j, by simpa using hj⟩
            (by simp [hid, hsame])
          exact hij (Fin.mk.inj hpos)
        rw [if_neg hij, if_neg hne]
    exact congrArg (fun feedbacks => { t with feedbacks := feedbacks }) hset

/-! ## The invariant -/

/-- Every notification has the name of its document as its id, as `uploadFeedBack`
writes it. -/
def NamedFeedback (s : Firestore) (me : Uid) : Prop :=
  ∀ id data, s.lookup ⟨.userFeedback me, id⟩ = some data → Dictionary.string? data "id" = some id

/-- The follow state a row should have: set on the rows of fans that are followed. -/
def FeedBack.expected (s : Firestore) (me : Uid) (row : FeedBack) : Bool :=
  row.type = .fan && UserService.checkUserFans s me row.uid

namespace FeedBackScreen

variable {s : Firestore} {me : Uid} {t t' : FeedBackScreen}

/-- The list a fetch returns; it does not depend on the time (`fetchFeedBack_eq`). -/
def inbox (s : Firestore) (me : Uid) : List FeedBack := FeedBackService.fetchFeedBack s me ⟨0, 0⟩

theorem fetchFeedBack_eq (s : Firestore) (me : Uid) (now : Timestamp) :
    FeedBackService.fetchFeedBack s me now = inbox s me := by
  refine List.map_congr_left ?_
  rintro ⟨id, data⟩ hdoc
  obtain ⟨time, htime⟩ := Option.isSome_iff_exists.mp (mem_orderedByTime.mp hdoc).2
  exact FeedBack.init_timed htime now _

/-- The ids of the notifications are different. -/
theorem nodup_inbox (hnamed : NamedFeedback s me) : ((inbox s me).map (·.id)).Nodup := by
  have hids : (inbox s me).map (·.id) = (orderedByTime s (.userFeedback me)).map Prod.fst := by
    rw [inbox, FeedBackService.fetchFeedBack, List.map_map]
    refine List.map_congr_left ?_
    rintro ⟨id, data⟩ hdoc
    have hid := hnamed id data (mem_orderedByTime.mp hdoc).1
    simp only [Function.comp_apply, FeedBack.init, hid, Option.getD_some]
  rw [hids]
  exact nodup_orderedByTime s _

/-- The fetched list when the rows with the ids `known` have been marked. -/
def markedRows (s : Firestore) (me : Uid) (known : DocID → Bool) : List FeedBack :=
  (inbox s me).map fun row => row.marked (known row.id && row.expected s me)

/-- A check that is to be answered is for a `.fan` row of the inbox. The list is
empty with a fetch to come, or it is the fetched one, in which every `.fan` row
is marked or has its check to come. -/
structure Sound (s : Firestore) (me : Uid) (t : FeedBackScreen) : Prop where
  running : t.state.crashed = false
  checks : ∀ row, .checkUserFans row ∈ t.inflight → row ∈ inbox s me ∧ row.type = .fan
  rows : (t.state.feedbacks = [] ∧ .fetchFeedBack ∈ t.inflight) ∨
    ∃ known, t.state.feedbacks = markedRows s me known ∧
      ∀ row ∈ inbox s me, row.type = .fan → known row.id = true ∨ .checkUserFans row ∈ t.inflight

theorem Sound.viewDidLoad : viewDidLoad.Sound s me where
  running := rfl
  checks := fun row hrow => by cases List.mem_singleton.mp hrow
  rows := Or.inl ⟨rfl, List.mem_singleton_self _⟩

theorem Sound.refreshView (h : t.Sound s me) (hstep : t.step s me .refreshView = some t') :
    t'.Sound s me := by
  obtain rfl := Option.some.inj hstep
  refine ⟨h.running, fun row hrow => ?_, Or.inl ⟨rfl, ?_⟩⟩
  · rcases List.mem_append.mp hrow with hrow | hrow
    · exact h.checks row hrow
    · cases List.mem_singleton.mp hrow
  · exact List.mem_append_right _ (List.mem_singleton_self _)

/-- The rows of a fresh list are unmarked. -/
theorem inbox_eq (s : Firestore) (me : Uid) : inbox s me = markedRows s me fun _ => false := by
  refine (List.map_id (inbox s me)).symm.trans (List.map_congr_left fun row hrow => ?_)
  obtain ⟨doc, -, rfl⟩ := List.mem_map.mp hrow
  rfl

/-- A list that a fetch has put there has different ids. -/
theorem nodup_markedRows (hnamed : NamedFeedback s me) (known : DocID → Bool) :
    ((markedRows s me known).map (·.id)).Nodup := by
  rw [markedRows, List.map_map]
  exact nodup_inbox hnamed

/-- The closure of a check marks the rows of its id. -/
theorem map_markedRows {row : FeedBack} (hnamed : NamedFeedback s me) (hrow : row ∈ inbox s me)
    (hfan : row.type = .fan) (known : DocID → Bool) :
    (markedRows s me known).map (fun other =>
        if other.id = row.id then other.marked (UserService.checkUserFans s me row.uid)
        else other) =
      markedRows s me fun id => id = row.id || known id := by
  rw [markedRows, List.map_map]
  refine List.map_congr_left fun other hother => ?_
  simp only [Function.comp_apply, FeedBack.marked_id]
  by_cases hid : other.id = row.id
  · -- ids are different, so it is the row of the check
    obtain rfl : other = row := List.inj_on_of_nodup_map (nodup_inbox hnamed) hother hrow hid
    simp [FeedBack.marked, FeedBack.expected, hfan]
  · simp [hid]

/-- The list has different ids at any time. -/
theorem Sound.nodup (h : t.Sound s me) (hnamed : NamedFeedback s me) :
    (t.state.feedbacks.map (·.id)).Nodup := by
  rcases h.rows with ⟨hnil, -⟩ | ⟨known, hrows, -⟩
  · rw [hnil]
    exact List.nodup_nil
  · rw [hrows]
    exact nodup_markedRows hnamed known

/-- The answer of a fetch. -/
theorem Sound.answer_fetch (h : t.Sound s me) {pre post : List FeedBackRead}
    (hin : t.inflight = pre ++ .fetchFeedBack :: post) (now : Timestamp) :
    FeedBackScreen.Sound s me
      ⟨(FeedBackTableViewController.answered s me .fetchFeedBack now t.state).1, pre ++ post ++
        (FeedBackTableViewController.answered s me .fetchFeedBack now t.state).2⟩ := by
  simp only [FeedBackTableViewController.answered, fetchFeedBack_eq]
  refine ⟨h.running, fun row hrow => ?_, Or.inr ⟨fun _ => false, inbox_eq s me, ?_⟩⟩
  · rcases Flight.mem_of_answered (k := .fetchFeedBack) hrow with hrow | hrow
    · exact h.checks row (hin ▸ hrow)
    · obtain ⟨other, hother, heq⟩ := List.mem_map.mp hrow
      obtain rfl := FeedBackRead.checkUserFans.inj heq
      exact ⟨(List.mem_filter.mp hother).1, of_decide_eq_true (List.mem_filter.mp hother).2⟩
  · intro row hrow hfan
    refine Or.inr (List.mem_append_right _ (List.mem_map.mpr ⟨row, ?_, rfl⟩))
    exact List.mem_filter.mpr ⟨hrow, decide_eq_true hfan⟩

/-- The answer of a check. -/
theorem Sound.answer_check (h : t.Sound s me) (hnamed : NamedFeedback s me)
    {pre post : List FeedBackRead} {row : FeedBack}
    (hin : t.inflight = pre ++ .checkUserFans row :: post) :
    FeedBackScreen.Sound s me ⟨FeedBackTableViewController.checked t.state row
      (UserService.checkUserFans s me row.uid), pre ++ post⟩ := by
  obtain ⟨hrow, hfan⟩ := h.checks row (by rw [hin]; simp)
  have hleft : ∀ k : FeedBackRead, k ∈ t.inflight → k = .checkUserFans row ∨ k ∈ pre ++ post := by
    intro k hk
    simpa using Flight.mem_answered [] (hin ▸ hk)
  rw [FeedBackTableViewController.checked_eq (h.nodup hnamed)]
  refine ⟨h.running, fun other hother => h.checks other ?_, ?_⟩
  · rw [hin]
    exact Flight.mem_of_kept _ hother
  · rcases h.rows with ⟨hnil, hfetch⟩ | ⟨known, hrows, hcheck⟩
    · left
      refine ⟨by rw [hnil]; rfl, (hleft _ hfetch).resolve_left fun h => by cases h⟩
    · right
      refine ⟨fun id => id = row.id || known id, ?_, fun other hother hotherfan => ?_⟩
      · rw [hrows]
        exact map_markedRows hnamed hrow hfan known
      · rcases hcheck other hother hotherfan with hknown | hmem
        · exact Or.inl (by simp [hknown])
        · rcases hleft _ hmem with heq | hmem
          · obtain rfl := FeedBackRead.checkUserFans.inj heq
            exact Or.inl (by simp)
          · exact Or.inr hmem

theorem Sound.step (h : t.Sound s me) (hnamed : NamedFeedback s me) {e : FeedBackEvent}
    (hstep : t.step s me e = some t') : t'.Sound s me := by
  cases e with
  | refreshView => exact h.refreshView hstep
  | answer i now =>
    obtain ⟨pre, k, post, hin, -, rfl⟩ := Flight.answer_cases hstep
    cases k with
    | fetchFeedBack => exact h.answer_fetch hin now
    | checkUserFans row =>
      have hcheck := h.answer_check hnamed hin
      simpa only [FeedBackTableViewController.answered, List.append_nil] using hcheck

end FeedBackScreen

/-- For every run of a notification screen, with any number of refreshes and the
answers of all fetches and checks in any order: no closure indexes out of range,
the closure of a check changes the row of its own id and nothing else, and once
nothing is outstanding the list is the fetched one, with the follow state set on
exactly the rows of fans that are followed. -/
theorem rows_settled {s : Firestore} {me : Uid} (hnamed : NamedFeedback s me)
    {es : List FeedBackEvent} {t : FeedBackScreen}
    (hrun : run (FeedBackScreen.step s me) .viewDidLoad es = some t) :
    t.state.crashed = false ∧
    (∀ row, .checkUserFans row ∈ t.inflight →
      FeedBackTableViewController.checked t.state row (UserService.checkUserFans s me row.uid) =
        { t.state with feedbacks := t.state.feedbacks.map fun other =>
          if other.id = row.id then
            { other with userFan := UserService.checkUserFans s me row.uid }
          else other }) ∧
    (t.inflight = [] → ∀ now, t.state.feedbacks =
      (FeedBackService.fetchFeedBack s me now).map fun row =>
        { row with userFan := row.type = .fan && UserService.checkUserFans s me row.uid }) := by
  have hsound : t.Sound s me :=
    run_inv (P := FeedBackScreen.Sound s me) (fun _ _ _ h => h.step hnamed) es .viewDidLoad hrun
  refine ⟨hsound.running, fun row _ => ?_, fun hquiet now => ?_⟩
  · exact FeedBackTableViewController.checked_eq (hsound.nodup hnamed) row _
  · have hnone : ∀ k : FeedBackRead, k ∉ t.inflight := fun k => by
      rw [hquiet]
      exact List.not_mem_nil
    obtain ⟨-, hfetch⟩ | ⟨known, hrows, hcheck⟩ := hsound.rows
    · exact absurd hfetch (hnone _)
    · rw [hrows, FeedBackScreen.fetchFeedBack_eq]
      refine List.map_congr_left fun row hrow => ?_
      -- a row that should be marked is known, for its check is not to come any more
      by_cases hfan : row.type = .fan
      · have hknown := (hcheck row hrow hfan).resolve_right (hnone _)
        simp [FeedBack.marked, FeedBack.expected, hknown]
      · simp [FeedBack.marked, FeedBack.expected, hfan]

/-- The notification that the reader has become a fan. -/
def fanNotice (id : DocID) (seconds : Int) : Dictionary :=
  FeedBackService.data .fan none (User.init (.ofList [("uid", .string "reader")]))
    ⟨id, ⟨seconds, 0⟩⟩

/-- The author has two such notifications and follows the reader. -/
def twoNotices : Firestore :=
  [Lib.DocWrite.setData ⟨.userFeedback "author", "x"⟩ (fanNotice "x" 1),
    .setData ⟨.userFeedback "author", "y"⟩ (fanNotice "y" 2),
    .setData ⟨.userStar "author", "reader"⟩ .empty].foldl (fun s w => w.apply s) ∅

theorem namedFeedback_twoNotices : NamedFeedback twoNotices "author" := by
  intro id data hdata
  simp only [twoNotices, List.foldl, Lib.Store.lookup_apply_setData] at hdata
  split at hdata
  next href => cases href
  next =>
    split at hdata
    next href =>
      cases href
      cases hdata
      rfl
    next =>
      split at hdata
      next href =>
        cases href
        cases hdata
        rfl
      next => cases hdata

/-- A refresh while the first checks are outstanding; they are answered before
and after the second fetch. -/
def impatient : List FeedBackEvent :=
  [.answer 0 ⟨3, 0⟩, .refreshView, .answer 1 ⟨3, 0⟩, .answer 1 ⟨3, 0⟩, .answer 0 ⟨3, 0⟩,
    .answer 1 ⟨3, 0⟩, .answer 0 ⟨3, 0⟩]

/-- `rows_settled` there: both rows are marked. -/
theorem rows_settled_impatient : ∃ t,
    run (FeedBackScreen.step twoNotices "author") .viewDidLoad impatient = some t ∧
    t.inflight = [] ∧ t.state.feedbacks.map (fun row => (row.id, row.userFan)) =
      [("y", true), ("x", true)] ∧
    t.state.feedbacks = (FeedBackService.fetchFeedBack twoNotices "author" ⟨3, 0⟩).map fun row =>
      { row with userFan :=
        row.type = .fan && UserService.checkUserFans twoNotices "author" row.uid } := by
  have hrun : run (FeedBackScreen.step twoNotices "author") .viewDidLoad impatient =
      some ((run (FeedBackScreen.step twoNotices "author") .viewDidLoad impatient).get
        (by decide)) := (Option.some_get _).symm
  exact ⟨_, hrun, by decide, by decide,
    (rows_settled namedFeedback_twoNotices hrun).2.2 (by decide) ⟨3, 0⟩⟩

end Toontagram
