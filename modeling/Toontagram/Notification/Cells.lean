import Toontagram.Lib.Outbox
import Toontagram.Notification.Rows

/-!
# The follow buttons of the notification screen

`tableView(_:cellForRowAt:)`, `cell(_:fan:)` and `cell(_:unFan:)` of
`FeedBackTableViewController`, and `FeedBackCell`. A cell shows a copy of its row of
`feedbacks`, made when the cell is set up for the row. A tap on its button follows or
unfollows by what the copy says, and when the second of the two writes is
acknowledged the closure toggles the copy of whatever row the cell shows by then. The
row in `feedbacks` stays as it was: only `checkFeedBack` writes there.

All writes succeed. `FollowScreen.outcome` is the follow state the store will have when
the writes on their way have come, and `Agree` says that each cell will show it then.
`FollowScreen.Ok` is what a step must meet for that: `Sound.agree_step`.
-/

namespace Toontagram

open Lib (Along DocWrite Flight Store exists_run_to landed landed_append landed_toList_append
  run run_always_iff_along run_append run_inv run_inv_of_forall)

/-- `FeedBackViewModel`. -/
structure FeedBackViewModel where
  feedback : FeedBack
deriving DecidableEq

namespace FeedBackViewModel

/-- `hideCartoonImage`: the button is shown instead. -/
def hideCartoonImage (vm : FeedBackViewModel) : Bool := vm.feedback.type = .fan

/-- `fanButtonText`: what the button shows. -/
def fanButtonText (vm : FeedBackViewModel) : String :=
  if vm.feedback.userFan then "Subscribed" else "UnSubscribed"

/-- `feedback.userFan.toggle()`. -/
def toggle (vm : FeedBackViewModel) : FeedBackViewModel :=
  ⟨vm.feedback.marked !vm.feedback.userFan⟩

@[simp] theorem hideCartoonImage_toggle (vm : FeedBackViewModel) :
    vm.toggle.hideCartoonImage = vm.hideCartoonImage := rfl

@[simp] theorem uid_toggle (vm : FeedBackViewModel) :
    vm.toggle.feedback.uid = vm.feedback.uid := rfl

@[simp] theorem userFan_toggle (vm : FeedBackViewModel) :
    vm.toggle.feedback.userFan = !vm.feedback.userFan := rfl

end FeedBackViewModel

/-- A cell of the table view. -/
abbrev CellID := Nat

/-- The table view: the rows, the view model of each cell (`nil` before its first
row), and which cells are on the screen for which rows. -/
structure FeedBackCells where
  store : Firestore
  feedbacks : List FeedBack
  viewModel : CellID → Option FeedBackViewModel
  displayed : List (Nat × CellID)

/-- A call with the cell its completion captures. -/
structure CellCall where
  call : Call
  cell : CellID

/-- `FeedBackCell.didTapFan()` with `cell(_:fan:)` and `cell(_:unFan:)` of the
delegate. -/
def FeedBackCell.didTapFan (auth : Option Uid) (vm : FeedBackViewModel) : List Call :=
  if vm.feedback.userFan then UserService.antiFanUser auth vm.feedback.uid .ignore
  else UserService.fanUsers auth vm.feedback.uid .ignore

/-- The completion that runs next is the one the screen has passed. -/
def Call.completes (k : Call) : Bool :=
  match k.request with
  | .write _ (.screen _) => true
  | _ => false

/-- What the acknowledgement of a call does. -/
def CellCall.exec (k : CellCall) (m : Moment) (s : FeedBackCells) :
    FeedBackCells × List CellCall :=
  let (store, reaction) := k.call.exec ⟨true, m⟩ s.store
  let viewModel := if k.call.completes then
      Function.update s.viewModel k.cell ((s.viewModel k.cell).map .toggle)
    else s.viewModel
  ({ s with store := store, viewModel := viewModel },
    reaction.calls.map fun call => ⟨call, k.cell⟩)

/-- The table view with its unacknowledged writes. -/
abbrev FollowScreen := Flight FeedBackCells CellCall

inductive CellEvent where
  | cellForRowAt (row : Nat) (cell : CellID)
  | didEndDisplaying (cell : CellID)
  | didTapFan (cell : CellID)
  | answer (i : Nat) (m : Moment)
deriving DecidableEq

/-- The acknowledgement of a write. -/
def CellEvent.isAnswer : CellEvent → Bool
  | .answer _ _ => true
  | _ => false

namespace FollowScreen

/-- The screen of `me` once the rows are loaded and checked (`Notification/Rows.lean`). -/
def opened (store : Firestore) (me : Uid) (now : Timestamp) : FollowScreen where
  state :=
    { store := store
      feedbacks := (FeedBackService.fetchFeedBack store me now).map fun row =>
        { row with userFan := row.type = .fan && UserService.checkUserFans store me row.uid }
      viewModel := fun _ => none
      displayed := [] }
  inflight := []

/-- No earlier write to the same document is in flight. -/
def inOrder (s : FollowScreen) (i : Nat) : Bool :=
  match s.inflight[i]? with
  | some k => (s.inflight.take i).all fun earlier => earlier.call.writes != k.call.writes
  | none => true

/-- One event on the screen of `me`. A cell is set up for a row that is not shown
while it is not on the screen itself; writes to one document arrive in order. -/
def step (me : Uid) (s : FollowScreen) : CellEvent → Option FollowScreen
  | .cellForRowAt row cell =>
    match s.state.feedbacks[row]? with
    | none => none
    | some feedback =>
      if s.state.displayed.all fun shown => shown.1 ≠ row && shown.2 ≠ cell then
        some { s with state := { s.state with
          viewModel := Function.update s.state.viewModel cell (some ⟨feedback⟩)
          displayed := (row, cell) :: s.state.displayed } }
      else none
  | .didEndDisplaying cell =>
    some { s with state := { s.state with
      displayed := s.state.displayed.filter fun shown => shown.2 ≠ cell } }
  | .didTapFan cell =>
    match s.state.viewModel cell with
    | none => none
    | some vm =>
      if s.state.displayed.any (fun shown => shown.2 = cell) && vm.hideCartoonImage then
        some (s.issue ((FeedBackCell.didTapFan (some me) vm).map fun call => ⟨call, cell⟩))
      else none
  | .answer i m => if s.inOrder i then s.answer (fun k m => k.exec m) i m else none

/-- Every button on the screen shows whether `me` follows the sender of its row. -/
def Right (me : Uid) (s : FollowScreen) : Prop :=
  ∀ shown ∈ s.state.displayed, ∀ feedback ∈ s.state.feedbacks[shown.1]?, feedback.type = .fan →
    ∃ vm, s.state.viewModel shown.2 = some vm ∧ vm.fanButtonText =
      if UserService.checkUserFans s.state.store me feedback.uid then "Subscribed"
      else "UnSubscribed"

/-- The follow state of `uid` when the writes in flight have come. -/
def outcome (me : Uid) (s : FollowScreen) (uid : Uid) : Bool :=
  landed (UserService.checkUserFans s.state.store me uid)
    (s.inflight.filterMap fun k => k.call.leavesAt ⟨.userStar me, uid⟩)

/-- The acknowledgements on their way will leave the cell toggled: a tap is one call
in flight until the closure of its second write has run. -/
def awaits (s : FollowScreen) (cell : CellID) : Bool :=
  (s.inflight.countP fun k => k.cell = cell) % 2 = 1

/-- The condition for a step.

- A row is built from the list, and the cell may still be toggled for the row it
  showed before: together they give the follow state the sender will have.
- A button is tapped that waits for no acknowledgement, and no other row on the
  screen is from the same sender. -/
def Ok (me : Uid) (s : FollowScreen) : CellEvent → Prop
  | .cellForRowAt row cell => ∀ feedback ∈ s.state.feedbacks[row]?, feedback.type = .fan →
    (feedback.userFan ^^ s.awaits cell) = s.outcome me feedback.uid
  | .didEndDisplaying _ => True
  | .didTapFan cell => s.awaits cell = false ∧
    ∀ vm ∈ s.state.viewModel cell, ∀ shown ∈ s.state.displayed, shown.2 ≠ cell →
      ∀ other ∈ s.state.viewModel shown.2, other.hideCartoonImage = true →
        other.feedback.uid ≠ vm.feedback.uid
  | .answer _ _ => True

instance (me : Uid) (s : FollowScreen) : DecidablePred (s.Ok me)
  | .cellForRowAt row _ =>
    inferInstanceAs (Decidable (∀ feedback ∈ s.state.feedbacks[row]?, feedback.type = .fan → _))
  | .didTapFan cell =>
    inferInstanceAs (Decidable (_ ∧ ∀ vm ∈ s.state.viewModel cell, ∀ shown ∈ s.state.displayed,
      shown.2 ≠ cell → ∀ other ∈ s.state.viewModel shown.2, other.hideCartoonImage = true → _))
  | .didEndDisplaying _ => .isTrue trivial
  | .answer _ _ => .isTrue trivial

end FollowScreen

/-! ## The calls of a tap -/

/-- The first write of a tap. -/
def UserService.starCall (me : Uid) (fan : Bool) (uid : Uid) : Call :=
  ⟨some me, .write (.mark fan ⟨.userStar me, uid⟩)
    (if fan then .fanUsers uid me .ignore else .antiFanUser uid me .ignore)⟩

/-- The second write of a tap. -/
def UserService.fanCall (me : Uid) (fan : Bool) (uid : Uid) : Call :=
  ⟨some me, .write (.mark fan ⟨.userFan uid, me⟩) (.screen .ignore)⟩

open UserService (starCall fanCall)

theorem FeedBackCell.didTapFan_eq (me : Uid) (vm : FeedBackViewModel) :
    didTapFan (some me) vm = [starCall me (!vm.feedback.userFan) vm.feedback.uid] := by
  unfold didTapFan
  cases vm.feedback.userFan <;> rfl

theorem CellCall.exec_star (me : Uid) (fan : Bool) (uid : Uid) (cell : CellID) (m : Moment)
    (s : FeedBackCells) : CellCall.exec ⟨starCall me fan uid, cell⟩ m s =
      ({ s with store := (DocWrite.mark fan ⟨.userStar me, uid⟩).apply s.store },
        [⟨fanCall me fan uid, cell⟩]) := by
  cases fan <;> rfl

theorem CellCall.exec_fan (me : Uid) (fan : Bool) (uid : Uid) (cell : CellID) (m : Moment)
    (s : FeedBackCells) : CellCall.exec ⟨fanCall me fan uid, cell⟩ m s =
      ({ s with
          store := (DocWrite.mark fan ⟨.userFan uid, me⟩).apply s.store
          viewModel := Function.update s.viewModel cell ((s.viewModel cell).map .toggle) }, []) :=
  rfl

/-- A call decides only about the document it writes. -/
theorem Call.leavesAt_of_writes {k : Call} {ref : DocRef} (h : k.writes ≠ some ref) :
    k.leavesAt ref = none := by
  obtain ⟨auth, request⟩ := k
  cases request with
  | write w c => exact if_neg fun heq => h (congrArg some heq)
  | getDocuments q c => rfl
  | getDocument ref' c => rfl

namespace FollowScreen

/-- The calls in flight are those of taps. -/
inductive Stems (me : Uid) : Call → Prop where
  | star (fan : Bool) (uid : Uid) : Stems me (starCall me fan uid)
  | fan (fan : Bool) (uid : Uid) : Stems me (fanCall me fan uid)

/-- What holds all along: the calls in flight are those of taps, and a cell on the
screen shows its row, up to the follow state. -/
structure Sound (me : Uid) (s : FollowScreen) : Prop where
  stems : ∀ k ∈ s.inflight, Stems me k.call
  shows : ∀ shown ∈ s.state.displayed, ∃ feedback fan,
    s.state.feedbacks[shown.1]? = some feedback ∧
    s.state.viewModel shown.2 = some ⟨feedback.marked fan⟩

/-- Each button on the screen will be right when the writes in flight have come. -/
def Agree (me : Uid) (s : FollowScreen) : Prop :=
  ∀ shown ∈ s.state.displayed, ∀ vm, s.state.viewModel shown.2 = some vm →
    vm.hideCartoonImage = true →
      (vm.feedback.userFan ^^ s.awaits shown.2) = s.outcome me vm.feedback.uid

variable {me : Uid} {s s' : FollowScreen}

/-! ## What one step does -/

/-- A cell is set up. -/
theorem cellForRowAt_cases {row : Nat} {cell : CellID}
    (hstep : s.step me (.cellForRowAt row cell) = some s') : ∃ feedback,
      s.state.feedbacks[row]? = some feedback ∧
      (∀ shown ∈ s.state.displayed, shown.2 ≠ cell) ∧
      s' = { s with state := { s.state with
        viewModel := Function.update s.state.viewModel cell (some ⟨feedback⟩)
        displayed := (row, cell) :: s.state.displayed } } := by
  simp only [step] at hstep
  split at hstep
  next => cases hstep
  next feedback hrow =>
    split at hstep
    next hfree =>
      refine ⟨feedback, hrow, fun shown hshown => ?_, (Option.some.inj hstep).symm⟩
      have hboth := List.all_eq_true.mp hfree shown hshown
      simp only [Bool.and_eq_true, decide_eq_true_eq] at hboth
      exact hboth.2
    next => cases hstep

/-- A button is tapped. -/
theorem didTapFan_cases {cell : CellID} (hstep : s.step me (.didTapFan cell) = some s') :
    ∃ vm row, s.state.viewModel cell = some vm ∧ (row, cell) ∈ s.state.displayed ∧
      vm.hideCartoonImage = true ∧
      s' = s.issue [⟨starCall me (!vm.feedback.userFan) vm.feedback.uid, cell⟩] := by
  simp only [step] at hstep
  split at hstep
  next => cases hstep
  next vm hvm =>
    split at hstep
    next hon =>
      obtain ⟨hany, hbutton⟩ := Bool.and_eq_true_iff.mp hon
      obtain ⟨⟨row, other⟩, hshown, hcell⟩ := List.any_eq_true.mp hany
      obtain rfl : other = cell := of_decide_eq_true hcell
      rw [FeedBackCell.didTapFan_eq] at hstep
      exact ⟨vm, row, hvm, hshown, hbutton, (Option.some.inj hstep).symm⟩
    next => cases hstep

/-- What an acknowledgement can do: the first write of a tap is followed by the second,
whose own acknowledgement toggles the cell. -/
theorem answer_cases (h : s.Sound me) {i : Nat} {m : Moment}
    (hstep : s.step me (.answer i m) = some s') : ∃ pre k post,
      s.inflight = pre ++ k :: post ∧
      (∀ earlier ∈ pre, earlier.call.writes ≠ k.call.writes) ∧
      s' = ⟨(k.exec m s.state).1, pre ++ post ++ (k.exec m s.state).2⟩ ∧
      ((∃ fan uid, k.call = starCall me fan uid) ∨ ∃ fan uid, k.call = fanCall me fan uid) := by
  simp only [step] at hstep
  split at hstep
  next horder =>
    obtain ⟨pre, k, post, hin, hlen, rfl⟩ := Flight.answer_cases hstep
    refine ⟨pre, k, post, hin, fun earlier hearlier => ?_, rfl, ?_⟩
    · have htake : s.inflight.take i = pre := by rw [hin, ← hlen, List.take_left]
      simp only [inOrder, hin, Flight.getElem?_answered hlen] at horder
      rw [← hin, htake, List.all_eq_true] at horder
      exact bne_iff_ne.mp (horder earlier hearlier)
    · have hstems := h.stems k (by rw [hin]; simp)
      cases hk : k.call with
      | mk auth request =>
        rw [hk] at hstems
        cases hstems with
        | star fan uid => exact Or.inl ⟨fan, uid, rfl⟩
        | fan fan uid => exact Or.inr ⟨fan, uid, rfl⟩
  next => cases hstep

/-- An acknowledgement that overtakes no write of its document changes no outcome. -/
theorem outcome_answer {t : FeedBackCells} {pre post spawned : List CellCall} {k : CellCall}
    (hin : s.inflight = pre ++ k :: post)
    (horder : ∀ earlier ∈ pre, earlier.call.writes ≠ k.call.writes)
    (hspawned : ∀ j ∈ spawned, ∃ fan uid, j.call = fanCall me fan uid)
    (hstore : ∀ uid, UserService.checkUserFans t.store me uid =
      (k.call.leavesAt ⟨.userStar me, uid⟩).getD (UserService.checkUserFans s.state.store me uid))
    (uid : Uid) :
    outcome me ⟨t, pre ++ post ++ spawned⟩ uid = s.outcome me uid := by
  have hnone : spawned.filterMap (fun j => j.call.leavesAt ⟨.userStar me, uid⟩) = [] := by
    refine List.filterMap_eq_nil_iff.mpr fun j hj => ?_
    obtain ⟨fan, v, hj⟩ := hspawned j hj
    rw [hj]
    exact Call.leavesAt_of_writes (by simp [Call.writes, fanCall])
  have hsplit : (k :: post).filterMap (fun j => j.call.leavesAt ⟨.userStar me, uid⟩) =
      (k.call.leavesAt ⟨.userStar me, uid⟩).toList ++
        post.filterMap fun j => j.call.leavesAt ⟨.userStar me, uid⟩ := by
    cases hk : k.call.leavesAt ⟨.userStar me, uid⟩ <;> simp [hk]
  rw [outcome, outcome, hin, hstore, List.filterMap_append, List.filterMap_append,
    List.filterMap_append, hsplit, hnone, List.append_nil]
  by_cases hwrites : k.call.writes = some ⟨.userStar me, uid⟩
  · -- the oldest write of the document: no earlier one decides it
    have hpre : pre.filterMap (fun j => j.call.leavesAt ⟨.userStar me, uid⟩) = [] :=
      List.filterMap_eq_nil_iff.mpr fun j hj =>
        Call.leavesAt_of_writes fun hj' => horder j hj (hj'.trans hwrites.symm)
    rw [hpre, List.nil_append, List.nil_append, landed_toList_append]
  · rw [Call.leavesAt_of_writes hwrites]
    rfl

/-- The second write of a tap replaces the first one among those in flight. -/
theorem awaits_star {t : FeedBackCells} {pre post : List CellCall} {k : CellCall} (call : Call)
    (hin : s.inflight = pre ++ k :: post) (cell : CellID) :
    awaits ⟨t, pre ++ post ++ [⟨call, k.cell⟩]⟩ cell = s.awaits cell := by
  simp only [awaits, hin, List.countP_append, List.countP_cons, List.countP_nil]
  congr 2
  omega

/-- The closure of a tap has run. -/
theorem awaits_fan {t : FeedBackCells} {pre post : List CellCall} {k : CellCall}
    (hin : s.inflight = pre ++ k :: post) (cell : CellID) :
    awaits ⟨t, pre ++ post⟩ cell = (s.awaits cell ^^ decide (k.cell = cell)) := by
  simp only [awaits, hin, List.countP_append, List.countP_cons]
  by_cases hcell : k.cell = cell
  · simp only [hcell, decide_true, if_true, Bool.xor_true]
    rw [← decide_not, decide_eq_decide]
    omega
  · simp [hcell]

/-- An acknowledgement changes nothing about what the buttons will show. -/
theorem agree_answer (h : s.Sound me) {i : Nat} {m : Moment}
    (hstep : s.step me (.answer i m) = some s') : s'.Agree me ↔ s.Agree me := by
  obtain ⟨pre, ⟨call, cell⟩, post, hin, horder, rfl, hcall⟩ := answer_cases h hstep
  rcases hcall with ⟨fan, uid, rfl⟩ | ⟨fan, uid, rfl⟩
  · rw [CellCall.exec_star]
    refine forall₂_congr fun shown _ => forall₃_congr fun vm _ _ => ?_
    rw [awaits_star _ hin, outcome_answer hin horder]
    · intro j hj
      obtain rfl := List.mem_singleton.mp hj
      exact ⟨fan, uid, rfl⟩
    · exact fun v => Store.has_apply _ _ _
  · rw [CellCall.exec_fan]
    have hout : ∀ t, t.store = (DocWrite.mark fan ⟨.userFan uid, me⟩).apply s.state.store →
        ∀ v, outcome me ⟨t, pre ++ post ++ []⟩ v = s.outcome me v := by
      intro t ht v
      refine outcome_answer hin horder (fun j hj => absurd hj List.not_mem_nil) (fun w => ?_) v
      rw [ht]
      exact Store.has_apply _ _ _
    refine forall₂_congr fun shown _ => ?_
    simp only [List.append_nil] at hout ⊢
    by_cases hcell : cell = shown.2
    · -- the copy is toggled and the cell waits for one acknowledgement less
      subst hcell
      simp only [Function.update_self, Option.map_eq_some_iff, forall_exists_index, and_imp,
        forall_apply_eq_imp_iff₂, FeedBackViewModel.hideCartoonImage_toggle,
        FeedBackViewModel.userFan_toggle, FeedBackViewModel.uid_toggle, awaits_fan hin,
        decide_true, Bool.xor_true, Bool.not_xor_not]
      exact forall₃_congr fun vm _ _ => by rw [hout _ rfl]
    · simp only [Function.update_of_ne (Ne.symm hcell), awaits_fan hin, hcell, decide_false,
        Bool.xor_false]
      exact forall₃_congr fun vm _ _ => by rw [hout _ rfl]

/-- The new tap decides about its sender, and the cell waits for it. -/
theorem outcome_tap (fan : Bool) (u : Uid) (cell : CellID) (uid : Uid) :
    outcome me (s.issue [⟨starCall me fan u, cell⟩]) uid =
      if u = uid then fan else s.outcome me uid := by
  rw [outcome, outcome, Flight.issue, List.filterMap_append, landed_append]
  by_cases huid : u = uid
  · subst huid
    simp [starCall, Call.leavesAt, DocWrite.leavesAt, landed]
  · simp [starCall, Call.leavesAt, DocWrite.leavesAt, huid]

theorem awaits_tap (call : Call) (cell other : CellID) :
    awaits (s.issue [⟨call, cell⟩]) other = (s.awaits other ^^ decide (cell = other)) := by
  simp only [awaits, Flight.issue, List.countP_append, List.countP_singleton]
  by_cases hcell : cell = other
  · simp only [hcell, decide_true, if_true, Bool.xor_true]
    rw [← decide_not, decide_eq_decide]
    omega
  · simp [hcell]

/-- A tap keeps the buttons right exactly where its condition holds: otherwise the
button of the cell, or another one with the same sender, will be wrong. -/
theorem agree_didTapFan (hagree : s.Agree me) {cell : CellID}
    (hstep : s.step me (.didTapFan cell) = some s') : s'.Agree me ↔ s.Ok me (.didTapFan cell) := by
  obtain ⟨vm, row, hvm, hshown, hbutton, rfl⟩ := didTapFan_cases hstep
  have hown := hagree _ hshown vm hvm hbutton
  constructor
  · intro hagree'
    have hidle : s.awaits cell = false := by
      have hown' := hagree' _ hshown vm hvm hbutton
      rw [outcome_tap, awaits_tap, if_pos rfl, decide_eq_true rfl, Bool.xor_true] at hown'
      have hodd : (!s.awaits cell) = true :=
        Bool.xor_right_inj.mp (hown'.trans (Bool.xor_true _).symm)
      exact (Bool.not_eq_true' _).mp hodd
    refine ⟨hidle, fun vm' hvm' other hother hne vmo hvmo hvis huid => ?_⟩
    obtain rfl : vm = vm' := Option.some.inj (hvm.symm.trans hvm')
    have hbefore := hagree _ hother vmo hvmo hvis
    have hafter := hagree' _ hother vmo hvmo hvis
    rw [outcome_tap, awaits_tap, if_pos huid.symm, decide_eq_false (Ne.symm hne),
      Bool.xor_false, hbefore, huid, ← hown, hidle, Bool.xor_false] at hafter
    exact Bool.not_ne_self _ hafter.symm
  · rintro ⟨hidle, halone⟩ other hother vmo hvmo hvis
    rw [outcome_tap, awaits_tap]
    by_cases hcell : cell = other.2
    · subst hcell
      obtain rfl : vm = vmo := Option.some.inj (hvm.symm.trans hvmo)
      rw [if_pos rfl, hidle, decide_eq_true rfl, Bool.false_xor, Bool.xor_true]
    · have huid := halone vm hvm other hother (Ne.symm hcell) vmo hvmo hvis
      rw [if_neg huid.symm, decide_eq_false hcell, Bool.xor_false]
      exact hagree other hother vmo hvmo hvis

/-- A cell that is set up will be right exactly where its condition holds. -/
theorem agree_cellForRowAt (hagree : s.Agree me) {row : Nat} {cell : CellID}
    (hstep : s.step me (.cellForRowAt row cell) = some s') :
    s'.Agree me ↔ s.Ok me (.cellForRowAt row cell) := by
  obtain ⟨feedback, hrow, hfree, rfl⟩ := cellForRowAt_cases hstep
  constructor
  · intro hagree' feedback' hrow' hfan
    obtain rfl : feedback = feedback' := Option.some.inj (hrow.symm.trans hrow')
    exact hagree' (row, cell) (List.mem_cons_self ..) ⟨feedback⟩ (Function.update_self ..)
      (decide_eq_true hfan)
  · intro hok shown hshown vm hvm hbutton
    rcases List.mem_cons.mp hshown with rfl | hshown
    · have hself : (⟨feedback⟩ : FeedBackViewModel) = vm := by
        simpa only [Function.update_self, Option.some.injEq] using hvm
      subst hself
      exact hok feedback hrow (of_decide_eq_true hbutton)
    · refine hagree shown hshown vm ?_ hbutton
      rw [← hvm]
      exact (Function.update_of_ne (hfree shown hshown) ..).symm

/-- The step lemma: of a screen that will be right, a step leaves one that will be
right exactly when it meets its condition. -/
theorem Sound.agree_step (h : s.Sound me) (hagree : s.Agree me) {e : CellEvent}
    (hstep : s.step me e = some s') : s'.Agree me ↔ s.Ok me e := by
  cases e with
  | cellForRowAt row cell => exact agree_cellForRowAt hagree hstep
  | didTapFan cell => exact agree_didTapFan hagree hstep
  | answer i m => exact iff_of_true ((agree_answer h hstep).mpr hagree) trivial
  | didEndDisplaying cell =>
    obtain rfl := Option.some.inj hstep
    refine iff_of_true (fun shown hshown => ?_) trivial
    exact hagree shown (List.mem_of_mem_filter hshown)

theorem Sound.step (h : s.Sound me) {e : CellEvent} (hstep : s.step me e = some s') :
    s'.Sound me := by
  cases e with
  | cellForRowAt row cell =>
    obtain ⟨feedback, hrow, hfree, rfl⟩ := cellForRowAt_cases hstep
    refine ⟨h.stems, fun shown hshown => ?_⟩
    rcases List.mem_cons.mp hshown with rfl | hshown
    · exact ⟨feedback, feedback.userFan, hrow, Function.update_self ..⟩
    · obtain ⟨other, fan, hother, hvm⟩ := h.shows shown hshown
      exact ⟨other, fan, hother, (Function.update_of_ne (hfree shown hshown) ..).trans hvm⟩
  | didEndDisplaying cell =>
    obtain rfl := Option.some.inj hstep
    exact ⟨h.stems, fun shown hshown => h.shows shown (List.mem_of_mem_filter hshown)⟩
  | didTapFan cell =>
    obtain ⟨vm, row, -, -, -, rfl⟩ := didTapFan_cases hstep
    refine ⟨fun k hk => ?_, h.shows⟩
    rcases List.mem_append.mp hk with hk | hk
    · exact h.stems k hk
    · obtain rfl := List.mem_singleton.mp hk
      exact .star _ _
  | answer i m =>
    obtain ⟨pre, ⟨call, cell⟩, post, hin, -, rfl, hcall⟩ := answer_cases h hstep
    have hold : ∀ k ∈ pre ++ post, Stems me k.call := fun k hk =>
      h.stems k (hin ▸ Flight.mem_of_kept _ hk)
    rcases hcall with ⟨fan, uid, rfl⟩ | ⟨fan, uid, rfl⟩
    · rw [CellCall.exec_star]
      refine ⟨fun k hk => ?_, h.shows⟩
      rcases List.mem_append.mp hk with hk | hk
      · exact hold k hk
      · obtain rfl := List.mem_singleton.mp hk
        exact .fan fan uid
    · rw [CellCall.exec_fan]
      refine ⟨fun k hk => hold k (by simpa using hk), fun shown hshown => ?_⟩
      obtain ⟨feedback, b, hrow, hvm⟩ := h.shows shown hshown
      by_cases hcell : shown.2 = cell
      · refine ⟨feedback, !b, hrow, ?_⟩
        simp only [← hcell, Function.update_self, hvm, Option.map_some]
        rfl
      · exact ⟨feedback, b, hrow, (Function.update_of_ne hcell ..).trans hvm⟩

/-! ## Waiting for the acknowledgements -/

/-- The number of acknowledgements to come. -/
def remaining (s : FollowScreen) : Nat :=
  s.inflight.length + s.inflight.countP fun k => !k.call.completes

/-- Each acknowledgement leaves one less to come. -/
theorem remaining_answer (h : s.Sound me) {i : Nat} {m : Moment}
    (hstep : s.step me (.answer i m) = some s') : s'.remaining < s.remaining := by
  obtain ⟨pre, ⟨call, cell⟩, post, hin, -, rfl, hcall⟩ := answer_cases h hstep
  simp only [remaining, hin, List.length_append, List.length_cons, List.countP_append,
    List.countP_cons]
  rcases hcall with ⟨fan, uid, rfl⟩ | ⟨fan, uid, rfl⟩
  · have hfirst : (starCall me fan uid).completes = false := by cases fan <;> rfl
    have hsecond : (fanCall me fan uid).completes = true := rfl
    simp only [CellCall.exec_star, List.length_cons, List.length_nil, List.countP_cons,
      List.countP_nil, hfirst, hsecond, Bool.not_true, Bool.not_false, if_true,
      Bool.false_eq_true, if_false]
    omega
  · have hsecond : (fanCall me fan uid).completes = true := rfl
    simp only [CellCall.exec_fan, List.length_nil, List.countP_nil, hsecond, Bool.not_true,
      Bool.false_eq_true, if_false]
    omega

/-- The oldest write can always be acknowledged. -/
theorem exists_answer (me : Uid) (hbusy : s.inflight ≠ []) :
    ∃ e s', e.isAnswer = true ∧ s.step me e = some s' := by
  obtain ⟨k, post, hin⟩ := List.exists_cons_of_ne_nil hbusy
  have horder : s.inOrder 0 = true := by simp [inOrder, hin]
  have hanswer : ∀ m, s.step me (.answer 0 m) =
      some ⟨(k.exec m s.state).1, post ++ (k.exec m s.state).2⟩ := fun m => by
    rw [FollowScreen.step, if_pos horder, Flight.answer, hin]
    rfl
  exact ⟨.answer 0 ⟨"", ⟨0, 0⟩⟩, _, rfl, hanswer _⟩

/-- With nothing on its way, the buttons are right now. -/
theorem agree_iff_right (h : s.Sound me) (hquiet : s.inflight = []) :
    s.Agree me ↔ s.Right me := by
  have hout : ∀ uid, s.outcome me uid = UserService.checkUserFans s.state.store me uid := by
    intro uid
    rw [outcome, hquiet]
    rfl
  have hwait : ∀ cell, s.awaits cell = false := by
    intro cell
    rw [awaits, hquiet]
    rfl
  refine forall₂_congr fun shown hshown => ?_
  obtain ⟨feedback, fan, hrow, hvm⟩ := h.shows shown hshown
  have htext : ∀ a b : Bool, (if a then "Subscribed" else "UnSubscribed") =
      (if b then "Subscribed" else "UnSubscribed") ↔ a = b := by decide
  simp only [hvm, hrow, Option.some.injEq, forall_eq', Option.mem_def, exists_eq_left', hout,
    hwait, Bool.xor_false, FeedBackViewModel.fanButtonText, htext,
    FeedBackViewModel.hideCartoonImage, decide_eq_true_eq]
  rfl

/-- The buttons will be right exactly if they are once the writes in flight have been
acknowledged, in whatever order. -/
theorem agree_iff_settled (h : s.Sound me) : s.Agree me ↔
    ∀ acks t, (∀ e ∈ acks, e.isAnswer = true) → run (step me) s acks = some t →
      t.inflight = [] → t.Right me := by
  -- acknowledgements keep `Agree` and lose it never
  have hkeep : ∀ (acks : List CellEvent) t, (∀ e ∈ acks, e.isAnswer = true) →
      run (FollowScreen.step me) s acks = some t → t.Sound me ∧ (t.Agree me ↔ s.Agree me) := by
    intro acks t hacks hrun
    refine run_inv_of_forall (P := fun t => t.Sound me ∧ (t.Agree me ↔ s.Agree me))
      (fun u e u' hu hanswer hstep => ?_) hacks ⟨h, Iff.rfl⟩ hrun
    cases e with
    | answer i m => exact ⟨hu.1.step hstep, (agree_answer hu.1 hstep).trans hu.2⟩
    | _ => cases hanswer
  constructor
  · intro hagree acks t hacks hrun hquiet
    obtain ⟨hsound, hiff⟩ := hkeep acks t hacks hrun
    exact (agree_iff_right hsound hquiet).mp (hiff.mpr hagree)
  · intro hall
    obtain ⟨acks, t, hacks, hrun, hquiet⟩ : ∃ acks t, (∀ e ∈ acks, CellEvent.isAnswer e = true) ∧
        run (FollowScreen.step me) s acks = some t ∧ t.inflight = [] := by
      refine exists_run_to (P := Sound me) remaining (fun u hu hbusy => ?_) s h
      obtain ⟨e, u', hanswer, hstep⟩ := exists_answer me hbusy
      refine ⟨e, u', hanswer, hstep, hu.step hstep, ?_⟩
      cases e with
      | answer i m => exact remaining_answer hu hstep
      | _ => cases hanswer
    obtain ⟨hsound, hiff⟩ := hkeep acks t hacks hrun
    exact hiff.mp ((agree_iff_right hsound hquiet).mpr (hall acks t hacks hrun hquiet))

theorem sound_opened (store : Firestore) (me : Uid) (now : Timestamp) :
    (opened store me now).Sound me :=
  ⟨fun _ hk => absurd hk List.not_mem_nil, fun _ hshown => absurd hshown List.not_mem_nil⟩

end FollowScreen

/-- A run of the notification screen of `me`, with any number of cells and taps. The
buttons on the screen are right whenever no write is outstanding, in the run and after
waiting at any point of it for the acknowledgements to come, exactly when every step
meets its condition. -/
theorem follow_buttons_iff {me : Uid} {store : Firestore} {now : Timestamp}
    {es : List CellEvent} {s : FollowScreen}
    (hrun : run (FollowScreen.step me) (.opened store me now) es = some s) :
    (∀ es₁ es₂ acks t, es = es₁ ++ es₂ → (∀ e ∈ acks, e.isAnswer = true) →
      run (FollowScreen.step me) (.opened store me now) (es₁ ++ acks) = some t →
      t.inflight = [] → t.Right me) ↔
    Along (FollowScreen.step me) (FollowScreen.Ok me) (.opened store me now) es := by
  have hopened := FollowScreen.sound_opened store me now
  rw [← run_always_iff_along (P := FollowScreen.Sound me) (Q := FollowScreen.Agree me)
    (fun _ _ _ h hstep => h.step hstep) (fun _ _ _ h hagree hstep => h.agree_step hagree hstep)
    es hopened (fun _ hshown => absurd hshown List.not_mem_nil) hrun]
  have hsound : ∀ es₁ u, run (FollowScreen.step me) (.opened store me now) es₁ = some u →
      u.Sound me := fun es₁ u hu =>
    run_inv (P := FollowScreen.Sound me) (fun _ _ _ h hstep => h.step hstep) es₁ hopened hu
  constructor
  · intro hall es₁ es₂ u hes hu
    refine (FollowScreen.agree_iff_settled (hsound es₁ u hu)).mpr fun acks t hacks ht => ?_
    exact hall es₁ es₂ acks t hes hacks (by rw [run_append, hu, Option.bind_some, ht])
  · intro hall es₁ es₂ acks t hes hacks ht hquiet
    rw [run_append] at ht
    obtain ⟨u, hu, ht⟩ := Option.bind_eq_some_iff.mp ht
    exact (FollowScreen.agree_iff_settled (hsound es₁ u hu)).mp (hall es₁ es₂ u hes hu) acks t
      hacks ht hquiet

/-- A row is unfollowed and followed again, and each time both writes are acknowledged. -/
def unhurried : List CellEvent :=
  [.cellForRowAt 0 0, .didTapFan 0, .answer 0 ⟨"", ⟨3, 0⟩⟩, .answer 0 ⟨"", ⟨3, 0⟩⟩,
    .didTapFan 0, .answer 0 ⟨"", ⟨4, 0⟩⟩, .answer 0 ⟨"", ⟨4, 0⟩⟩, .cellForRowAt 1 1]

/-- `follow_buttons_iff` there. -/
theorem follow_buttons_iff_unhurried : ∃ t,
    run (FollowScreen.step "author") (.opened twoNotices "author" ⟨3, 0⟩) unhurried = some t ∧
    t.inflight = [] ∧ t.state.displayed.length = 2 ∧ t.Right "author" := by
  have hrun : run (FollowScreen.step "author") (.opened twoNotices "author" ⟨3, 0⟩) unhurried =
      some ((run (FollowScreen.step "author") (.opened twoNotices "author" ⟨3, 0⟩)
        unhurried).get (by decide)) := (Option.some_get _).symm
  refine ⟨_, hrun, by decide, by decide, ?_⟩
  exact (follow_buttons_iff hrun).mpr (by decide) unhurried [] [] _ (List.append_nil _).symm
    (fun _ he => absurd he List.not_mem_nil) ((List.append_nil unhurried).symm ▸ hrun) (by decide)

/-- A row is unfollowed, both writes are acknowledged, and it scrolls out and back. -/
def scrolledBack : List CellEvent :=
  [.cellForRowAt 0 0, .didTapFan 0, .answer 0 ⟨"", ⟨3, 0⟩⟩, .answer 0 ⟨"", ⟨3, 0⟩⟩,
    .didEndDisplaying 0, .cellForRowAt 0 0]

/-- The button says "Subscribed" then, and the sender is not followed. -/
theorem follow_buttons_scrolledBack : ¬ ∀ (me : Uid) (store : Firestore) (now : Timestamp)
    (es : List CellEvent) (t : FollowScreen),
    run (FollowScreen.step me) (.opened store me now) es = some t → t.inflight = [] →
      t.Right me := by
  intro hall
  let t := (run (FollowScreen.step "author") (.opened twoNotices "author" ⟨3, 0⟩)
    scrolledBack).get (by decide)
  have hright : t.Right "author" := hall "author" twoNotices ⟨3, 0⟩ scrolledBack t
    (Option.some_get _).symm (by decide)
  obtain ⟨vm, hvm, htext⟩ := hright (0, 0) (by decide) ((t.state.feedbacks[0]?).get (by decide))
    (Option.some_get _).symm (by decide)
  have hshows : (t.state.viewModel 0).map (·.fanButtonText) = some "Subscribed" := by decide
  rw [hvm, Option.map_some, htext] at hshows
  revert hshows
  decide

end Toontagram
