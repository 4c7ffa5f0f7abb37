import Toontagram.Mirror.Order

/-!
# The cartoon screen

`CartoonViewController`, the like button of its footer (`CartoonMIDCell`) and
the `EditViewController` it presents. Whether the user likes the cartoon is kept
three times: in the document of `user-likes`, in `self.cartoon.didLike`, and in
the view model of the footer, which is what is shown.

- The answer of `checkUserLikeCartoon` and a finished edit assign
  `self.cartoon`, whose `didSet` asks for a reload; at the reload the footer
  gets a new view model made of `self.cartoon`.
- A tap turns over the flag in the view model of the footer only, and calls the
  service with the cartoon the view model held before.

`CartoonScreen.step` lets these come in any order, the writes of the device be
applied and acknowledged in any order, and other users write what they like.
`Steady` is the condition on a step under which the flag that is shown follows
the document: `Sound` is its invariant, `shown_eq_exists` the result.
-/

namespace Toontagram

open Lib (Along Store landed run run_inv_along)

/-- `EditViewController.didTapEdit()` of the screen that edits `cartoon`: the
button's title is the type, the title it starts with means that none is chosen. -/
def EditViewController.didTapEdit (auth : Option Uid) (cartoon : Cartoon)
    (type title caption : String) : List Call :=
  if title.isEmpty && caption.isEmpty && type == "카테고리" then []
  else if type == "카테고리" then []
  else if title.isEmpty then []
  else if caption.isEmpty then []
  else CartoonService.editCartoon auth type cartoon.cartoonId title caption

/-- `CartoonViewController` and its device. The cartoon of the footer's view
model is `cell`, the cartoon of a presented `EditViewController` is `editor`;
`needsReload` says that `reloadData()` was called and the footer not yet made.
`tapped` records that the like button has been used. -/
structure CartoonScreen where
  device : Device
  cartoon : Cartoon
  cell : Option Cartoon := none
  needsReload : Bool := true
  editor : Option Cartoon := none
  tapped : Bool := false

inductive ScreenEvent where
  /-- `didTapLike()` of the footer; `user` is the user of the tab bar. -/
  | didTapLike (user : Option User)
  /-- `collectionView(_:viewForSupplementaryElementOfKind:at:)`. -/
  | reload
  /-- The edit item of `editMenu`. -/
  | presentEditor
  | didTapEdit (type title caption : String)
  | apply (i : Nat)
  | acknowledge (i : Nat) (m : Moment)
  | serve (i : Nat) (m : Moment)
  | deliver (i : Nat)
  /-- A write of another user. -/
  | elsewhere (write : Write)

/-- `if cartoon.didLike` in `cell(_:didLike:)`. -/
def likeCall (cartoon : Cartoon) (user : User) : ServiceCall :=
  if cartoon.didLike then .unLikeCartoon cartoon .ignore
  else .likeCartoon cartoon (.liked cartoon user)

/-- What a closure assigns on the cartoon screen; the second case is
`vcDidFinish(_:)`. -/
def Effect.onScreen (s : CartoonScreen) : Effect → CartoonScreen
  | .didLike like => { s with cartoon := { s.cartoon with didLike := like }, needsReload := true }
  | .newCartoon cartoon => { s with cartoon := cartoon, needsReload := true, editor := none }
  | .profileFan _ _ => s

namespace CartoonScreen

/-- `viewDidLoad()` of a screen opened on `cartoon` by the user `me`. -/
def viewDidLoad (me : Uid) (store : Firestore) (cartoon : Cartoon) : CartoonScreen where
  device := (Device.opened store).issue
    (CartoonService.checkUserLikeCartoon (some me) cartoon .didLike)
  cartoon := cartoon

/-- `cell(_:didLike:)`, called by the footer with the cartoon of its view model. -/
def didLike (me : Uid) (s : CartoonScreen) (cartoon : Cartoon) (user : User) : CartoonScreen :=
  { s with
    cell := s.cell.map fun c => { c with didLike := !c.didLike }
    device := s.device.issue ((likeCall cartoon user).calls me)
    tapped := true }

/-- The assignments of a closure that has run. -/
def assign (s : CartoonScreen) (x : Device × List Effect) : CartoonScreen :=
  x.2.foldl Effect.onScreen { s with device := x.1 }

def step (me : Uid) (s : CartoonScreen) : ScreenEvent → Option CartoonScreen
  | .didTapLike user =>
    match s.cell, user with
    | some cartoon, some user => some (s.didLike me cartoon user)
    | _, _ => some s
  | .reload => some { s with cell := some s.cartoon, needsReload := false }
  | .presentEditor => if s.cartoon.uid = me then some { s with editor := some s.cartoon } else none
  | .didTapEdit type title caption =>
    s.editor.map fun cartoon =>
      { s with
        device := s.device.issue
          (EditViewController.didTapEdit (some me) cartoon type title caption) }
  | .apply i => (s.device.applyAt i).map fun device => { s with device := device }
  | .acknowledge i m => (s.device.acknowledgeAt i m).map s.assign
  | .serve i m => (s.device.serve i ⟨true, m⟩).map fun device => { s with device := device }
  | .deliver i => (s.device.deliver i).map s.assign
  | .elsewhere w =>
    if w.ref.collection = .userLikes me then none
    else
      let queue := { s.device.queue with state := w.apply s.device.queue.state }
      some { s with device := { s.device with queue := queue } }

/-- All callbacks have run and the footer is up to date with `self.cartoon`. -/
def Idle (s : CartoonScreen) : Prop := s.device.Idle ∧ s.needsReload = false

instance (s : CartoonScreen) : Decidable s.Idle := inferInstanceAs (Decidable (_ ∧ _))

/-! ## The condition on a step -/

end CartoonScreen

/-- The read of `checkUserLikeCartoon`. -/
def Call.checksLike (k : Call) : Bool :=
  match k.request with
  | .getDocument _ .didLike => true
  | _ => false

/-- The answer of `checkUserLikeCartoon`. -/
def Reaction.setsLike (x : Reaction) : Bool :=
  x.effects.any fun
    | .didLike _ => true
    | _ => false

/-- An edit that would bring another flag than `like`. -/
def Reaction.editsLike (like : Bool) (x : Reaction) : Bool :=
  x.effects.any fun
    | .newCartoon cartoon => cartoon.didLike != like
    | _ => false

namespace CartoonScreen

/-- The callback of `checkUserLikeCartoon` is outstanding. -/
def checking (s : CartoonScreen) : Bool :=
  s.device.reads.any Call.checksLike || s.device.served.any Reaction.setsLike

/-- The document of `user-likes` for the cartoon of the screen, with the one of
`cartoon-likes` written before it. -/
def mirror (me : Uid) (s : CartoonScreen) : Lib.Mirror Call.effect Call.follow Bool :=
  (Pair.like s.cartoon.cartoonId).mirror me

/-- - A tap on a footer that shows a like finds a like to take back.
- Once tapped, the footer is made anew only with the flag it shows.
- Before that, no edit is delivered that changes the flag of `self.cartoon`,
  unless the check, which is still to come, repairs it.
- Writes and acknowledgements overtake none that decide the document. -/
def Steady (me : Uid) (s : CartoonScreen) : ScreenEvent → Prop
  | .didTapLike _ => ∀ c ∈ s.cell, c.didLike = true → c.like > 0
  | .reload => s.tapped = true → ∀ c ∈ s.cell, s.cartoon.didLike = c.didLike
  | .deliver i => s.tapped = false → s.checking = false →
      ∀ x ∈ s.device.served[i]?, x.editsLike s.cartoon.didLike = false
  | .apply i => ∀ k ∈ s.device.queue.sent[i]?, (s.mirror me).Passes k (s.device.queue.sent.take i)
  | .acknowledge i _ => ∀ k ∈ s.device.queue.applied[i]?,
      (s.mirror me).later k = [] ∨ (s.device.queue.applied.take i).flatMap (s.mirror me).later = []
  | _ => True

instance (me : Uid) (s : CartoonScreen) : ∀ e, Decidable (s.Steady me e)
  | .didTapLike _ => inferInstanceAs (Decidable (∀ c ∈ s.cell, c.didLike = true → c.like > 0))
  | .reload =>
    inferInstanceAs (Decidable (s.tapped = true → ∀ c ∈ s.cell, s.cartoon.didLike = c.didLike))
  | .deliver i => inferInstanceAs (Decidable (s.tapped = false → s.checking = false →
      ∀ x ∈ s.device.served[i]?, x.editsLike s.cartoon.didLike = false))
  | .apply i => inferInstanceAs (Decidable
      (∀ k ∈ s.device.queue.sent[i]?, (s.mirror me).Passes k (s.device.queue.sent.take i)))
  | .acknowledge i _ => inferInstanceAs (Decidable (∀ k ∈ s.device.queue.applied[i]?,
      (s.mirror me).later k = [] ∨
        (s.device.queue.applied.take i).flatMap (s.mirror me).later = []))
  | .presentEditor => .isTrue trivial
  | .didTapEdit .. => .isTrue trivial
  | .serve .. => .isTrue trivial
  | .elsewhere _ => .isTrue trivial

end CartoonScreen

/-! ## The reads of the device -/

/-- The document a callback is given. -/
def GetCallback.document (me : Uid) (id : DocID) : GetCallback → DocRef
  | .didLike => ⟨.userLikes me, id⟩
  | .edited => ⟨.cartoon, id⟩

/-- What a served read leaves to do on the screen: nothing, the answer of the
check, or a finished edit. Further calls are writes and touch no pair. -/
structure Reaction.Expected (id : DocID) (x : Reaction) : Prop where
  effects : x.effects = [] ∨ (∃ b, x.effects = [.didLike b]) ∨
    ∃ c : Cartoon, x.effects = [.newCartoon c] ∧ c.cartoonId = id
  calls : ∀ k ∈ x.calls, k.isWrite = true ∧ k.unpaired

/-- The reads of a cartoon screen ask for the documents of its cartoon. -/
structure Device.Asking (me : Uid) (id : DocID) (d : Device) : Prop where
  reads : ∀ k ∈ d.reads, k.isWrite = false
  asked : ∀ k ∈ d.reads, ∀ ref callback, k.request = .getDocument ref callback →
    ref = callback.document me id
  served : ∀ x ∈ d.served, x.Expected id

/-- The closure of a write assigns nothing on a cartoon screen. -/
theorem Call.effects_reaction (k : Call) (m : Moment) :
    ∀ e ∈ (k.reaction m).effects, ∃ vc fan, e = .profileFan vc fan := by
  intro e he
  obtain ⟨auth, request⟩ := k
  cases request with
  | getDocuments q c => cases he
  | getDocument ref c => cases he
  | write w c =>
    cases c with
    | screen c =>
      cases c with
      | ignore => cases he
      | antiFanned vc user => exact ⟨vc, false, List.mem_singleton.mp he⟩
      | fanned vc user currentUser => exact ⟨vc, true, List.mem_singleton.mp he⟩
      | liked cartoon user => cases he
      | commented cartoon user => cases he
    | fanUsers => cases he
    | antiFanUser => cases he
    | likeCartoon => cases he
    | unLikeCartoon => cases he

/-- The closure of a write asks for no single document. -/
theorem Call.calls_reaction (k : Call) (m : Moment) :
    ∀ k' ∈ (k.reaction m).calls, ∀ ref callback, k'.request ≠ .getDocument ref callback := by
  intro k' hk' ref callback h
  obtain ⟨auth, request⟩ := k
  cases request with
  | getDocuments q c => cases hk'
  | getDocument ref c => cases hk'
  | write w c =>
    cases Completion.spawned_run hk' with
    | feed | feedback | cartoons | fan | likes => cases h

/-- The answer of a read that asks for the cartoon of the screen. -/
theorem Call.exec_expected {k : Call} {me : Uid} {id : DocID} (hread : k.isWrite = false)
    (hasked : ∀ ref callback, k.request = .getDocument ref callback →
      ref = callback.document me id) (r : Reply) (s : Firestore) :
    (k.exec r s).2.Expected id := by
  have hunpaired := Call.exec_unpaired hread r s
  obtain ⟨auth, request⟩ := k
  have hcalls : ∀ k' ∈ (Call.exec ⟨auth, request⟩ r s).2.calls,
      k'.isWrite = true ∧ k'.unpaired := by
    intro k' hk'
    refine ⟨?_, hunpaired k' hk'⟩
    obtain ⟨b, v, x, rfl⟩ := Call.mem_exec_read (fun w c h => by cases h; cases hread) hk'
    rfl
  refine ⟨?_, hcalls⟩
  cases request with
  | write w c => cases hread
  | getDocuments q c =>
    left
    simp only [Call.exec]
    split
    · cases c <;> rfl
    · rfl
  | getDocument ref c =>
    obtain rfl := hasked ref c rfl
    simp only [Call.exec]
    split
    next =>
      cases c with
      | didLike => exact .inr (.inl ⟨_, rfl⟩)
      | edited =>
        simp only [GetCallback.run]
        split
        · exact .inl rfl
        · exact .inr (.inr ⟨_, rfl, rfl⟩)
    next => exact .inl rfl

namespace Device.Asking

variable {me : Uid} {id : DocID} {d d' : Device}

theorem serve (h : d.Asking me id) {i : Nat} {r : Reply} (hserve : d.serve i r = some d') :
    d'.Asking me id := by
  obtain ⟨k, hk, rfl⟩ := Option.map_eq_some_iff.mp hserve
  have hmem := List.mem_of_getElem? hk
  refine ⟨fun k' hk' => h.reads k' (List.mem_of_mem_eraseIdx hk'),
    fun k' hk' => h.asked k' (List.mem_of_mem_eraseIdx hk'), fun x hx => ?_⟩
  rcases List.mem_append.mp hx with hx | hx
  · exact h.served x hx
  · rw [List.mem_singleton.mp hx]
    exact Call.exec_expected (h.reads k hmem) (h.asked k hmem) r _

/-- A served read is delivered: it leaves `served`, and its writes join the
queue. -/
theorem deliver (h : d.Asking me id) {i : Nat} {effects : List Effect}
    (hdeliver : d.deliver i = some (d', effects)) :
    ∃ x, d.served[i]? = some x ∧ x.Expected id ∧ effects = x.effects ∧
      d' = { d with served := d.served.eraseIdx i }.issue x.calls ∧ d'.reads = d.reads := by
  obtain ⟨x, hx, he⟩ := Option.map_eq_some_iff.mp hdeliver
  cases he
  have hexp := h.served x (List.mem_of_getElem? hx)
  refine ⟨x, hx, hexp, rfl, rfl, ?_⟩
  have hreads : x.calls.filter (fun k => !k.isWrite) = [] := by
    refine List.filter_eq_nil_iff.mpr fun k hk => ?_
    simp [(hexp.calls k hk).1]
  rw [Device.issue, hreads, List.append_nil]

/-- Further calls that ask for no other document. -/
theorem extend (h : d.Asking me id) {ks : List Call}
    (hks : ∀ k ∈ ks, ∀ ref callback, k.request = .getDocument ref callback →
      ref = callback.document me id) (queue : Lib.Outbox Firestore Call) :
    ({ d with queue := queue, reads := d.reads ++ ks.filter fun k => !k.isWrite } :
      Device).Asking me id := by
  refine ⟨fun k hk => ?_, fun k hk => ?_, h.served⟩
  · rcases List.mem_append.mp hk with hk | hk
    · exact h.reads k hk
    · simpa using (List.mem_filter.mp hk).2
  · rcases List.mem_append.mp hk with hk | hk
    · exact h.asked k hk
    · exact hks k (List.mem_of_mem_filter hk)

end Device.Asking

/-- An edit writes the cartoon's document and asks for it. -/
theorem EditViewController.mem_didTapEdit {me : Uid} {cartoon : Cartoon}
    {type title caption : String} {k : Call}
    (hk : k ∈ didTapEdit (some me) cartoon type title caption) :
    k.unpaired ∧ ∀ ref callback, k.request = .getDocument ref callback →
      ref = callback.document me cartoon.cartoonId := by
  unfold didTapEdit at hk
  split_ifs at hk
  · cases hk
  · cases hk
  · cases hk
  · cases hk
  simp only [CartoonService.editCartoon, List.mem_cons, List.not_mem_nil, or_false] at hk
  rcases hk with rfl | rfl
  · refine ⟨⟨fun me p => ?_, fun ref => rfl⟩, fun ref callback h => by cases h⟩
    cases p <;>
      simp [Call.leavesAt, Lib.DocWrite.leavesAt, Lib.DocWrite.ref, Pair.first, Pair.second]
  · refine ⟨⟨fun me p => ⟨rfl, rfl⟩, fun ref => rfl⟩, fun ref callback h => ?_⟩
    cases h
    rfl

/-- The check brings whether the document exists. -/
theorem Call.exec_didLike {k : Call} {me : Uid} {id : DocID} {r : Reply} {s : Firestore} {b : Bool}
    (hread : k.isWrite = false)
    (hasked : ∀ ref callback, k.request = .getDocument ref callback →
      ref = callback.document me id)
    (hb : .didLike b ∈ (k.exec r s).2.effects) : b = s.has ⟨.userLikes me, id⟩ := by
  obtain ⟨auth, request⟩ := k
  cases request with
  | write w c => cases hread
  | getDocuments q c =>
    simp only [Call.exec] at hb
    split at hb
    · cases c <;> cases hb
    · cases hb
  | getDocument ref c =>
    obtain rfl := hasked ref c rfl
    simp only [Call.exec] at hb
    split at hb
    next =>
      cases c with
      | didLike =>
        cases List.mem_singleton.mp hb
        rfl
      | edited =>
        simp only [GetCallback.run] at hb
        split at hb
        · cases hb
        · cases List.mem_singleton.mp hb
    next => cases hb

/-- A check that is answered is delivered. -/
theorem Call.setsLike_exec {k : Call} (hk : k.checksLike = true) (m : Moment) (s : Firestore) :
    (k.exec ⟨true, m⟩ s).2.setsLike = true := by
  obtain ⟨auth, request⟩ := k
  cases request with
  | write w c => cases hk
  | getDocuments q c => cases hk
  | getDocument ref c =>
    cases c with
    | didLike => rfl
    | edited => cases hk

/-- Like and unlike write only. -/
theorem likeCall_isWrite (me : Uid) (cartoon : Cartoon) (user : User) :
    ∀ k ∈ (likeCall cartoon user).calls me, k.isWrite = true := by
  intro k hk
  unfold likeCall at hk
  split at hk
  · simp only [ServiceCall.calls, CartoonService.unLikeCartoon] at hk
    split at hk
    next =>
      simp only [List.mem_cons, List.not_mem_nil, or_false] at hk
      rcases hk with rfl | rfl <;> rfl
    next => cases hk
  · simp only [ServiceCall.calls, CartoonService.likeCartoon, List.mem_cons, List.not_mem_nil,
      or_false] at hk
    rcases hk with rfl | rfl <;> rfl

/-- A tap leaves the other flag, if it finds a like to take back. -/
theorem leaves_likeCall {cartoon : Cartoon} (user : User)
    (hlike : cartoon.didLike = true → cartoon.like > 0) :
    (likeCall cartoon user).leaves (.like cartoon.cartoonId) = some (!cartoon.didLike) := by
  unfold likeCall
  cases hdid : cartoon.didLike with
  | true => simp [ServiceCall.leaves, hlike hdid]
  | false => simp [ServiceCall.leaves]

/-! ## The invariant -/

namespace CartoonScreen

variable {me : Uid} {id : DocID}

/-- Whether the document of `user-likes` exists. -/
def liked (me : Uid) (id : DocID) (d : Device) : Bool := d.queue.state.has ⟨.userLikes me, id⟩

/-- What the document of `user-likes` will say when all writes are done. -/
def outcome (me : Uid) (id : DocID) (d : Device) : Bool :=
  ((Pair.like id).mirror me).outcomeSecond d.queue

/-- Before the first tap: no write decides the document, the check brings its
value, and until then the flags may be wrong. -/
structure Untouched (me : Uid) (id : DocID) (s : CartoonScreen) : Prop where
  calls : ∀ k ∈ s.device.queue.sent ++ s.device.queue.applied, k.unpaired
  checked : ∀ x ∈ s.device.served, ∀ b, .didLike b ∈ x.effects → b = liked me id s.device
  cartoon : s.checking = true ∨ s.cartoon.didLike = liked me id s.device
  cell : s.checking = true ∨ s.needsReload = true ∨
    ∀ c ∈ s.cell, c.didLike = liked me id s.device

/-- All copies are copies of one cartoon, the footer has been made unless it is
still to be made, and: once tapped, the flag that is shown is what the document
will say. -/
structure Sound (me : Uid) (id : DocID) (s : CartoonScreen) : Prop where
  asking : s.device.Asking me id
  cartoon : s.cartoon.cartoonId = id
  cell : ∀ c ∈ s.cell, c.cartoonId = id
  editor : ∀ c ∈ s.editor, c.cartoonId = id
  made : s.needsReload = false → s.cell.isSome
  tapped : s.tapped = true → ∃ c ∈ s.cell, c.didLike = outcome me id s.device
  untapped : s.tapped = false → s.Untouched me id

theorem checking_iff {s : CartoonScreen} : s.checking = true ↔
    (∃ k ∈ s.device.reads, k.checksLike = true) ∨ ∃ x ∈ s.device.served, x.setsLike = true := by
  rw [checking, Bool.or_eq_true, List.any_eq_true, List.any_eq_true]

theorem Sound.viewDidLoad (me : Uid) (store : Firestore) (cartoon : Cartoon) :
    (viewDidLoad me store cartoon).Sound me cartoon.cartoonId where
  asking := ⟨fun k hk => by rw [List.mem_singleton.mp hk]; rfl,
    fun k hk ref callback h => by rw [List.mem_singleton.mp hk] at h; cases h; rfl,
    fun x hx => by cases hx⟩
  cartoon := rfl
  cell c hc := by cases hc
  editor c hc := by cases hc
  made h := by cases h
  tapped h := by cases h
  untapped _ := ⟨fun k hk => (by cases hk), fun x hx => (by cases hx), .inl rfl, .inl rfl⟩

/-! ## What each event keeps -/

/-- The device changes and the screen does not. -/
theorem Sound.withDevice {s : CartoonScreen} (hs : s.Sound me id) {d : Device}
    (hasking : d.Asking me id) (houtcome : outcome me id d = outcome me id s.device)
    (huntapped : s.tapped = false → { s with device := d }.Untouched me id) :
    { s with device := d }.Sound me id :=
  ⟨hasking, hs.cartoon, hs.cell, hs.editor, hs.made, fun h => houtcome ▸ hs.tapped h, huntapped⟩

/-- A device that still waits for whatever it waited for, and whose document
has not changed. -/
theorem Untouched.withDevice {s : CartoonScreen} (hs : s.Untouched me id) {d : Device}
    (hcalls : ∀ k ∈ d.queue.sent ++ d.queue.applied, k.unpaired)
    (hliked : liked me id d = liked me id s.device) (hserved : d.served = s.device.served)
    (hreads : ∀ k ∈ s.device.reads, k ∈ d.reads) : { s with device := d }.Untouched me id := by
  have hchecking :
      s.checking = true → ({ s with device := d } : CartoonScreen).checking = true := by
    rw [checking_iff, checking_iff]
    exact Or.imp (fun ⟨k, hk, h⟩ => ⟨k, hreads k hk, h⟩) fun ⟨x, hx, h⟩ => ⟨x, hserved ▸ hx, h⟩
  refine ⟨hcalls, fun x hx b hb => ?_, hs.cartoon.imp hchecking fun h => h.trans hliked.symm,
    hs.cell.imp hchecking (Or.imp_right fun h c hc => (h c hc).trans hliked.symm)⟩
  rw [hliked]
  exact hs.checked x (hserved ▸ hx) b hb

/-- The first tap and every other one: the document will say what the footer
shows from now on. -/
theorem outcome_didLike (d : Device) {cartoon : Cartoon} (user : User)
    (hlike : cartoon.didLike = true → cartoon.like > 0) :
    outcome me cartoon.cartoonId (d.issue ((likeCall cartoon user).calls me)) =
      !cartoon.didLike := by
  obtain ⟨-, hsecond, hlater⟩ := (likeCall cartoon user).puts me (.like cartoon.cartoonId)
  rw [outcome, Device.issue, Lib.Mirror.outcomeSecond_issue _ _ hsecond, hlater,
    leaves_likeCall user hlike]
  rfl

theorem Sound.didTapLike {s : CartoonScreen} (hs : s.Sound me id) {cartoon : Cartoon}
    (hcell : s.cell = some cartoon) (user : User)
    (hlike : cartoon.didLike = true → cartoon.like > 0) :
    (s.didLike me cartoon user).Sound me id := by
  have hid : cartoon.cartoonId = id := hs.cell cartoon hcell
  have hwrites := likeCall_isWrite me cartoon user
  refine ⟨hs.asking.extend (fun k hk ref callback h => ?_) _, hs.cartoon, fun c hc => ?_,
    hs.editor, fun _ => ?_, fun _ => ?_, fun h => by cases h⟩
  · have := hwrites k hk
    rw [Call.isWrite, h] at this
    cases this
  · rw [CartoonScreen.didLike, hcell] at hc
    obtain rfl := Option.some.inj hc
    exact hid
  · rw [CartoonScreen.didLike, hcell]
    rfl
  · refine ⟨{ cartoon with didLike := !cartoon.didLike }, ?_, ?_⟩
    · rw [CartoonScreen.didLike, hcell]
      rfl
    · exact (hid ▸ outcome_didLike s.device user hlike).symm

theorem Sound.reload {s : CartoonScreen} (hs : s.Sound me id)
    (hsame : s.tapped = true → ∀ c ∈ s.cell, s.cartoon.didLike = c.didLike) :
    { s with cell := some s.cartoon, needsReload := false }.Sound me id := by
  refine ⟨hs.asking, hs.cartoon, fun c hc => ?_, hs.editor, fun _ => rfl, fun h => ?_, fun h => ?_⟩
  · obtain rfl := Option.some.inj hc
    exact hs.cartoon
  · obtain ⟨c, hc, hout⟩ := hs.tapped h
    exact ⟨s.cartoon, rfl, (hsame h c hc).trans hout⟩
  · -- the new footer has the flag of `self.cartoon`
    have hu := hs.untapped h
    refine ⟨hu.calls, hu.checked, hu.cartoon, hu.cartoon.imp_right fun hcartoon => .inr ?_⟩
    intro c hc
    obtain rfl := Option.some.inj hc
    exact hcartoon

theorem Sound.didTapEdit {s : CartoonScreen} (hs : s.Sound me id) {cartoon : Cartoon}
    (heditor : s.editor = some cartoon) (type title caption : String) :
    { s with
      device := s.device.issue
        (EditViewController.didTapEdit (some me) cartoon type title caption) }.Sound me id := by
  have hid : cartoon.cartoonId = id := hs.editor cartoon heditor
  have hcalls : ∀ k ∈ EditViewController.didTapEdit (some me) cartoon type title caption,
      k.unpaired ∧ ∀ ref callback, k.request = .getDocument ref callback →
        ref = callback.document me cartoon.cartoonId :=
    fun k hk => EditViewController.mem_didTapEdit hk
  refine hs.withDevice (hs.asking.extend (fun k hk => hid ▸ (hcalls k hk).2) _)
    (Device.issue_unpaired (fun k hk => (hcalls k hk).1) me _).2 fun h => ?_
  refine (hs.untapped h).withDevice (fun k hk => ?_) rfl rfl fun k hk => List.mem_append_left _ hk
  rcases List.mem_append.mp hk with hk | hk
  · rcases List.mem_append.mp hk with hk | hk
    · exact (hs.untapped h).calls k (List.mem_append_left _ hk)
    · exact (hcalls k (List.mem_of_mem_filter hk)).1
  · exact (hs.untapped h).calls k (List.mem_append_right _ hk)

theorem Sound.apply {s : CartoonScreen} (hs : s.Sound me id) {i : Nat} {d : Device}
    (hpass : s.Steady me (.apply i)) (happly : s.device.applyAt i = some d) :
    { s with device := d }.Sound me id := by
  obtain ⟨queue, hqueue, rfl⟩ := Option.map_eq_some_iff.mp happly
  have hpass : ∀ k, s.device.queue.sent[i]? = some k →
      ((Pair.like id).mirror me).Passes k (s.device.queue.sent.take i) := by
    rw [← hs.cartoon]
    exact hpass
  refine hs.withDevice ⟨hs.asking.reads, hs.asking.asked, hs.asking.served⟩
    (Lib.Mirror.outcomeSecond_applyAt _ hqueue hpass) fun h => ?_
  have hcalls := (hs.untapped h).calls
  obtain ⟨k, post, -, hsent, rfl⟩ := Lib.Outbox.applyAt_cases hqueue
  rw [hsent] at hcalls
  have hk : k.leavesAt ⟨.userLikes me, id⟩ = none :=
    ((hcalls k (by simp)).1 me (.like id)).2
  refine (hs.untapped h).withDevice (fun k' hk' => hcalls k' ?_) ?_ rfl fun k hk => hk
  · simp only [List.mem_append, List.mem_cons, List.not_mem_nil, or_false] at hk' ⊢
    tauto
  · rw [liked, k.has_effect, hk]
    rfl

/-- The closure of a write that touches no pair touches none. -/
theorem follow_unpaired {k : Call} (hk : k.unpaired) (m : Moment) :
    ∀ k' ∈ k.follow m, k'.unpaired := by
  rcases k.follow_cases m with ⟨b, ref, c, -, -, hlater⟩ | ⟨hunpaired, -⟩
  · have := (hlater ref).symm.trans (hk.2 ref)
    rw [if_pos rfl] at this
    cases this
  · exact hunpaired

theorem assign_plain (s : CartoonScreen) (d : Device) {effects : List Effect}
    (h : ∀ e ∈ effects, ∃ vc fan, e = .profileFan vc fan) :
    s.assign (d, effects) = { s with device := d } := by
  unfold assign
  generalize { s with device := d } = s'
  induction effects with
  | nil => rfl
  | cons e es ih =>
    obtain ⟨vc, fan, rfl⟩ := h e List.mem_cons_self
    exact ih fun e he => h e (List.mem_cons_of_mem _ he)

theorem Sound.acknowledge {s : CartoonScreen} (hs : s.Sound me id) {i : Nat} {m : Moment}
    {x : Device × List Effect} (hpass : s.Steady me (.acknowledge i m))
    (hack : s.device.acknowledgeAt i m = some x) : (s.assign x).Sound me id := by
  unfold Device.acknowledgeAt at hack
  split at hack
  next => cases hack
  next k hk =>
    obtain ⟨queue, hqueue, rfl⟩ := Option.map_eq_some_iff.mp hack
    rw [assign_plain s _ (k.effects_reaction m)]
    have hpass : ∀ k, s.device.queue.applied[i]? = some k →
        ((Pair.like id).mirror me).later k = [] ∨
          (s.device.queue.applied.take i).flatMap ((Pair.like id).mirror me).later = [] := by
      rw [← hs.cartoon]
      exact hpass
    refine hs.withDevice
      (hs.asking.extend (fun k' hk' ref callback h => absurd h (k.calls_reaction m k' hk' _ _)) _)
      (Lib.Mirror.outcomeSecond_acknowledgeAt _ hqueue hpass) fun h => ?_
    have hcalls := (hs.untapped h).calls
    obtain ⟨k, post, -, happlied, rfl⟩ := Lib.Outbox.acknowledgeAt_cases hqueue
    rw [happlied] at hcalls
    refine (hs.untapped h).withDevice (fun k' hk' => ?_) rfl rfl
      fun k hk => List.mem_append_left _ hk
    have hmem : k' ∈ k.follow m ∨
        k' ∈ s.device.queue.sent ++ (s.device.queue.applied.take i ++ k :: post) := by
      simp only [List.mem_append, List.mem_cons] at hk' ⊢
      tauto
    exact hmem.elim (follow_unpaired (hcalls k (by simp)) m k') (hcalls k')

theorem Sound.serve {s : CartoonScreen} (hs : s.Sound me id) {i : Nat} {m : Moment} {d : Device}
    (hserve : s.device.serve i ⟨true, m⟩ = some d) : { s with device := d }.Sound me id := by
  have hasking := hs.asking.serve hserve
  obtain ⟨k, hk, rfl⟩ := Option.map_eq_some_iff.mp hserve
  refine hs.withDevice hasking rfl fun h => ?_
  have hu := hs.untapped h
  -- the check is in `reads`, or in `served` if it is the read that was answered
  have hchecking : s.checking = true → ({ s with device := { s.device with
      reads := s.device.reads.eraseIdx i
      served := s.device.served ++ [(k.exec ⟨true, m⟩ s.device.queue.state).2] } } :
        CartoonScreen).checking = true := by
    rw [checking_iff, checking_iff]
    rintro (⟨k', hk', hc⟩ | ⟨x, hx, hsets⟩)
    · by_cases heq : k' = k
      · exact .inr ⟨_, List.mem_append_right _ (List.mem_singleton_self _),
          Call.setsLike_exec (heq ▸ hc) m _⟩
      · obtain ⟨j, hj⟩ := List.getElem?_of_mem hk'
        refine .inl ⟨k', List.mem_eraseIdx_iff_getElem?.mpr ⟨j, ?_, hj⟩, hc⟩
        rintro rfl
        exact heq (Option.some.inj (hj.symm.trans hk))
    · exact .inr ⟨x, List.mem_append_left _ hx, hsets⟩
  refine ⟨hu.calls, fun x hx b hb => ?_, hu.cartoon.imp_left hchecking, hu.cell.imp_left hchecking⟩
  rcases List.mem_append.mp hx with hx | hx
  · exact hu.checked x hx b hb
  · rw [List.mem_singleton.mp hx] at hb
    have hmem := List.mem_of_getElem? hk
    exact Call.exec_didLike (hs.asking.reads k hmem) (hs.asking.asked k hmem) hb

/-- Before the first tap: what a delivered read leaves of the device. -/
theorem Untouched.deliver {s : CartoonScreen} (hu : s.Untouched me id) {i : Nat} {x : Reaction}
    (hx : s.device.served[i]? = some x) (hcalls : ∀ k ∈ x.calls, k.unpaired)
    {d : Device} (hd : d = { s.device with served := s.device.served.eraseIdx i }.issue x.calls)
    (hreads : d.reads = s.device.reads) :
    (∀ k ∈ d.queue.sent ++ d.queue.applied, k.unpaired) ∧
    (∀ y ∈ d.served, ∀ b, .didLike b ∈ y.effects → b = liked me id d) ∧
    (s.checking = true → x.setsLike = false →
      ({ s with device := d } : CartoonScreen).checking = true) := by
  refine ⟨fun k hk => ?_, fun y hy b hb => ?_, fun hchecking hsets => ?_⟩
  · rw [hd] at hk
    rcases List.mem_append.mp hk with hk | hk
    · rcases List.mem_append.mp hk with hk | hk
      · exact hu.calls k (List.mem_append_left _ hk)
      · exact hcalls k (List.mem_of_mem_filter hk)
    · exact hu.calls k (List.mem_append_right _ hk)
  · rw [hd] at hy ⊢
    exact hu.checked y (List.mem_of_mem_eraseIdx hy) b hb
  · rw [checking_iff] at hchecking ⊢
    refine hchecking.imp (fun ⟨k, hk, h⟩ => ⟨k, hreads ▸ hk, h⟩) fun ⟨y, hy, h⟩ => ⟨y, ?_, h⟩
    obtain ⟨j, hj⟩ := List.getElem?_of_mem hy
    rw [hd]
    refine List.mem_eraseIdx_iff_getElem?.mpr ⟨j, ?_, hj⟩
    rintro rfl
    rw [Option.some.inj (hj.symm.trans hx), hsets] at h
    cases h

theorem Sound.deliver {s : CartoonScreen} (hs : s.Sound me id) {i : Nat}
    {x : Device × List Effect} (hsteady : s.Steady me (.deliver i))
    (hdeliver : s.device.deliver i = some x) : (s.assign x).Sound me id := by
  obtain ⟨d, effects⟩ := x
  obtain ⟨x, hx, hexp, rfl, hd, hreads⟩ := hs.asking.deliver hdeliver
  have hunpaired : ∀ k ∈ x.calls, k.unpaired := fun k hk => (hexp.calls k hk).2
  have hasking : d.Asking me id := by
    have herase : Device.Asking me id { s.device with served := s.device.served.eraseIdx i } :=
      ⟨hs.asking.reads, hs.asking.asked,
        fun y hy => hs.asking.served y (List.mem_of_mem_eraseIdx hy)⟩
    rw [hd]
    refine herase.extend (fun k hk ref callback h => ?_) _
    have hwrite := (hexp.calls k hk).1
    rw [Call.isWrite, h] at hwrite
    cases hwrite
  have houtcome : outcome me id d = outcome me id s.device := by
    rw [hd]
    exact (Device.issue_unpaired hunpaired me (.like id)).2
  have hliked : liked me id d = liked me id s.device := by
    rw [hd]
    rfl
  unfold assign
  rcases hexp.effects with he | ⟨b, he⟩ | ⟨c, he, hc⟩
  · -- nothing to assign
    rw [he]
    refine hs.withDevice hasking houtcome fun h => ?_
    have hu := hs.untapped h
    obtain ⟨hcalls, hchecked, hkeep⟩ := hu.deliver hx hunpaired hd hreads
    have hkeep := fun hc => hkeep hc (by rw [Reaction.setsLike, he]; rfl)
    exact ⟨hcalls, hchecked, hu.cartoon.imp hkeep fun h => h.trans hliked.symm,
      hu.cell.imp hkeep (Or.imp_right fun h c hc => (h c hc).trans hliked.symm)⟩
  · -- the check
    rw [he]
    refine ⟨hasking, hs.cartoon, hs.cell, hs.editor, fun h => (by cases h),
      fun h => houtcome ▸ hs.tapped h, fun h => ?_⟩
    have hu := hs.untapped h
    obtain ⟨hcalls, hchecked, -⟩ := hu.deliver hx hunpaired hd hreads
    have hb := hu.checked x (List.mem_of_getElem? hx) b (he ▸ List.mem_singleton_self _)
    exact ⟨hcalls, hchecked, .inr (hb.trans hliked.symm), .inr (.inl rfl)⟩
  · -- a finished edit
    rw [he]
    refine ⟨hasking, hc, hs.cell, fun c hc => (by cases hc), fun h => (by cases h),
      fun h => houtcome ▸ hs.tapped h, fun h => ?_⟩
    have hu := hs.untapped h
    obtain ⟨hcalls, hchecked, hkeep⟩ := hu.deliver hx hunpaired hd hreads
    have hkeep := fun hc => hkeep hc (by rw [Reaction.setsLike, he]; rfl)
    refine ⟨hcalls, hchecked, ?_, .inr (.inl rfl)⟩
    cases hchecking : s.checking with
    | true => exact .inl (hkeep hchecking)
    | false =>
      -- the check is over, so the decoded flag has to be the old one
      have hflag := hsteady h hchecking x hx
      rw [Reaction.editsLike, he] at hflag
      have hflag : c.didLike = s.cartoon.didLike := by simpa using hflag
      have hcartoon := hu.cartoon.resolve_left fun hc => by rw [hchecking] at hc; cases hc
      exact .inr ((hflag.trans hcartoon).trans hliked.symm)

/-- Another user writes no document of `me`. -/
theorem Sound.elsewhere {s : CartoonScreen} (hs : s.Sound me id) {w : Write}
    (hw : w.ref.collection ≠ .userLikes me) :
    { s with device := { s.device with queue := { s.device.queue with
      state := w.apply s.device.queue.state } } }.Sound me id := by
  have hne : w.ref ≠ ⟨.userLikes me, id⟩ := fun h => hw (by rw [h])
  have hhas := Store.has_apply_ne (s := s.device.queue.state) hne
  refine hs.withDevice ⟨hs.asking.reads, hs.asking.asked, hs.asking.served⟩ ?_ fun h => ?_
  · exact congrArg (landed · _) hhas
  · exact (hs.untapped h).withDevice (hs.untapped h).calls hhas rfl fun k hk => hk

theorem Sound.step {s s' : CartoonScreen} {e : ScreenEvent} (hs : s.Sound me id)
    (hsteady : s.Steady me e) (hstep : s.step me e = some s') : s'.Sound me id := by
  cases e with
  | didTapLike user =>
    simp only [CartoonScreen.step] at hstep
    split at hstep
    next cartoon user hcell =>
      cases hstep
      exact hs.didTapLike hcell user (hsteady cartoon hcell)
    next =>
      cases hstep
      exact hs
  | reload =>
    cases hstep
    exact hs.reload hsteady
  | presentEditor =>
    simp only [CartoonScreen.step] at hstep
    split at hstep
    next =>
      cases hstep
      refine ⟨hs.asking, hs.cartoon, hs.cell, fun c hc => ?_, hs.made, hs.tapped, fun h => ?_⟩
      · obtain rfl := Option.some.inj hc
        exact hs.cartoon
      · exact ⟨(hs.untapped h).calls, (hs.untapped h).checked, (hs.untapped h).cartoon,
          (hs.untapped h).cell⟩
    next => cases hstep
  | didTapEdit type title caption =>
    obtain ⟨cartoon, heditor, rfl⟩ := Option.map_eq_some_iff.mp hstep
    exact hs.didTapEdit heditor type title caption
  | apply i =>
    obtain ⟨d, hd, rfl⟩ := Option.map_eq_some_iff.mp hstep
    exact hs.apply hsteady hd
  | acknowledge i m =>
    obtain ⟨x, hx, rfl⟩ := Option.map_eq_some_iff.mp hstep
    exact hs.acknowledge hsteady hx
  | serve i m =>
    obtain ⟨d, hd, rfl⟩ := Option.map_eq_some_iff.mp hstep
    exact hs.serve hd
  | deliver i =>
    obtain ⟨x, hx, rfl⟩ := Option.map_eq_some_iff.mp hstep
    exact hs.deliver hsteady hx
  | elsewhere w =>
    simp only [CartoonScreen.step] at hstep
    split at hstep
    next => cases hstep
    next hw =>
      cases hstep
      exact hs.elsewhere hw

end CartoonScreen

/-- In every run of the screen whose steps are all `Steady`: whenever all
callbacks have run and the footer is up to date, it shows a like exactly if the
document of `user-likes` exists. -/
theorem shown_eq_exists {me : Uid} {store : Firestore} {cartoon : Cartoon}
    {es : List ScreenEvent} {t : CartoonScreen}
    (hrun : run (CartoonScreen.step me) (.viewDidLoad me store cartoon) es = some t)
    (hsteady : Along (CartoonScreen.step me) (CartoonScreen.Steady me)
      (.viewDidLoad me store cartoon) es) (hidle : t.Idle) :
    t.cell.map (·.didLike) =
      some (t.device.queue.state.has ⟨.userLikes me, cartoon.cartoonId⟩) := by
  have hs : t.Sound me cartoon.cartoonId :=
    run_inv_along (fun _ _ _ hs hok hstep => hs.step hok hstep) es
      (.viewDidLoad me store cartoon) hsteady hrun
  obtain ⟨⟨hqueue, hreads, hserved⟩, hmade⟩ := hidle
  obtain ⟨c, hc⟩ := Option.isSome_iff_exists.mp (hs.made hmade)
  rw [hc, Option.map_some]
  congr 1
  cases htapped : t.tapped with
  | true =>
    -- all writes are done, so what the document will say is what it says
    obtain ⟨c', hc', hflag⟩ := hs.tapped htapped
    obtain rfl : c = c' := Option.some.inj (hc.symm.trans hc')
    exact hflag.trans (((Pair.like cartoon.cartoonId).mirror me).outcomeSecond_idle hqueue)
  | false =>
    have hchecking : t.checking ≠ true := by
      rw [ne_eq, CartoonScreen.checking_iff, hreads, hserved]
      simp
    rcases (hs.untapped htapped).cell with h | h | h
    · exact absurd h hchecking
    · rw [hmade] at h
      cases h
    · exact h c hc

/-- The check finds no like; the button is tapped once, and all callbacks run. -/
def likedOnce : List ScreenEvent :=
  let m : Moment := ⟨"feedback", ⟨0, 0⟩⟩
  [.reload, .serve 0 m, .deliver 0, .reload, .didTapLike (some (User.init .empty)),
   .apply 0, .apply 0, .acknowledge 0 m, .acknowledge 0 m, .apply 0, .acknowledge 0 m,
   .apply 0, .acknowledge 0 m]

/-- Another reload makes the footer of `self.cartoon`, which the tap has not
changed: the like is stored and not shown. -/
theorem shown_stale_after_reload : ∃ t,
    run (CartoonScreen.step "reader")
      (.viewDidLoad "reader" ∅ (Cartoon.init ⟨0, 0⟩ "c" .empty)) (likedOnce ++ [.reload]) = some t ∧
    t.Idle ∧ t.cell.map (·.didLike) ≠ some (t.device.queue.state.has ⟨.userLikes "reader", "c"⟩) :=
  ⟨(run (CartoonScreen.step "reader")
      (.viewDidLoad "reader" ∅ (Cartoon.init ⟨0, 0⟩ "c" .empty)) (likedOnce ++ [.reload])).get
      (by decide), (Option.some_get _).symm, by decide, by decide⟩

/-- `shown_eq_exists` before that reload. -/
theorem shown_eq_exists_liked : ∃ t,
    run (CartoonScreen.step "reader")
      (.viewDidLoad "reader" ∅ (Cartoon.init ⟨0, 0⟩ "c" .empty)) likedOnce = some t ∧
    t.cell.map (·.didLike) = some (t.device.queue.state.has ⟨.userLikes "reader", "c"⟩) := by
  have hrun : run (CartoonScreen.step "reader")
      (.viewDidLoad "reader" ∅ (Cartoon.init ⟨0, 0⟩ "c" .empty)) likedOnce =
      some ((run (CartoonScreen.step "reader")
        (.viewDidLoad "reader" ∅ (Cartoon.init ⟨0, 0⟩ "c" .empty)) likedOnce).get (by decide)) :=
    (Option.some_get _).symm
  exact ⟨_, hrun, shown_eq_exists hrun (by decide) (by decide)⟩

end Toontagram
