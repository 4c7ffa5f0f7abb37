import Toontagram.Api.World
import Toontagram.Mirror.Order

/-!
# The follow button of a profile

`ProfileCollectionViewController` of one user. Whether the user is followed is kept four times:
in the star document, in the fan document, in `self.user.fan`, and in the view model of the
header, which is what is shown and what a tap looks at.

- A tap unfollows or follows by the view model. The star document is written, from its
  acknowledgement the fan document, and from that `self.user.fan` is assigned. Nothing stops
  a second tap on the way.
- `checkUserFans`, asked when the screen is opened, assigns `self.user.fan` whenever its
  answer comes.
- At the next layout the header gets a new view model made of `self.user`.

The writes of the device are applied and acknowledged in the order issued (`Api/Device.lean`),
other screens of the device issue calls of their own, and other users write what they like. Then
the three places that the taps lead to get what the last tap asked for, in this order, and the
check is the only thing that can come between (`Steady`, `button_follows`).
-/

namespace Toontagram

open Lib (Along Echo Outbox Store landed landed_append landed_of_ne_nil landed_toList_append run
  run_inv_along)

/-! ## What the closures tell a profile screen -/

/-- What the completion assigns as `user.fan` on the profile screen `vc`. -/
def ScreenCompletion.tells (vc : ProfileID) : ScreenCompletion → Option Bool
  | .antiFanned vc' _ => if vc' = vc then some false else none
  | .fanned vc' _ _ => if vc' = vc then some true else none
  | _ => none

def Completion.tells (vc : ProfileID) : Completion → Option Bool
  | .screen c => c.tells vc
  | _ => none

/-- What the completion of the screen assigns after the second write. -/
def Completion.laterTells (vc : ProfileID) : Completion → List Bool
  | .screen _ => []
  | .fanUsers _ _ c => (c.tells vc).toList
  | .antiFanUser _ _ c => (c.tells vc).toList
  | .likeCartoon _ _ c => (c.tells vc).toList
  | .unLikeCartoon _ _ c => (c.tells vc).toList

def Call.tells (vc : ProfileID) (k : Call) : Option Bool :=
  match k.request with
  | .write _ c => c.tells vc
  | _ => none

def Call.laterTells (vc : ProfileID) (k : Call) : List Bool :=
  match k.request with
  | .write _ c => c.laterTells vc
  | _ => []

/-- A call whose closures assign nothing on the screen. -/
def Call.Silent (vc : ProfileID) (k : Call) : Prop := k.tells vc = none ∧ k.laterTells vc = []

section silent

variable {vc : ProfileID}

theorem Call.silent_of_ignore (auth : Option Uid) (w : Write) :
    Call.Silent vc ⟨auth, .write w (.screen .ignore)⟩ := ⟨rfl, rfl⟩

/-- What the completions of the screens issue. -/
theorem ScreenCompletion.run_silent (c : ScreenCompletion) (auth : Option Uid) (m : Moment) :
    ∀ k ∈ (c.run auth m).calls, k.Silent vc := by
  intro k hk
  rcases ScreenCompletion.mem_run hk with ⟨toUid, id, data, rfl⟩ | ⟨author, uid, didFan, rfl⟩
  · exact Call.silent_of_ignore _ _
  · exact ⟨rfl, rfl⟩

/-- What the closures of the reads issue. -/
theorem Call.exec_silent {k : Call} (hk : k.isWrite = false) (r : Reply) (s : Firestore) :
    ∀ k' ∈ (k.exec r s).2.calls, k'.Silent vc := by
  intro k' hk'
  have hread : ∀ w c, k.request ≠ .write w c := by
    intro w c h
    rw [Call.isWrite, h] at hk
    cases hk
  obtain ⟨b, v, x, rfl⟩ := Call.mem_exec_read hread hk'
  exact Call.silent_of_ignore _ _

theorem Call.silent_filterMap {ks : List Call} (h : ∀ k ∈ ks, k.Silent vc) :
    ks.filterMap (Call.tells vc) = [] ∧ ks.flatMap (Call.laterTells vc) = [] :=
  ⟨List.filterMap_eq_nil_iff.mpr fun k hk => (h k hk).1,
    List.flatMap_eq_nil_iff.mpr fun k hk => (h k hk).2⟩

end silent

/-- The closure of the first write of a pair hands the completion to the second. -/
theorem Call.follow_tells (vc : ProfileID) (k : Call) (m : Moment) :
    (k.follow m).filterMap (Call.tells vc) = k.laterTells vc ∧
    (k.follow m).flatMap (Call.laterTells vc) = [] := by
  obtain ⟨auth, request⟩ := k
  cases request with
  | getDocuments q c => exact ⟨rfl, rfl⟩
  | getDocument ref c => exact ⟨rfl, rfl⟩
  | write w c =>
    have hsecond : ∀ (w : Write) (c : ScreenCompletion),
        [Call.mk auth (.write w (.screen c))].filterMap (Call.tells vc) = (c.tells vc).toList := by
      intro w c
      show List.filterMap _ _ = Option.toList (Call.tells vc ⟨auth, .write w (.screen c)⟩)
      cases h : Call.tells vc ⟨auth, .write w (.screen c)⟩ with
      | none => rw [List.filterMap_cons_none h]; rfl
      | some b => rw [List.filterMap_cons_some h]; rfl
    cases c with
    | screen c =>
      exact Call.silent_filterMap fun k hk => c.run_silent auth m k (List.mem_of_mem_filter hk)
    | fanUsers | antiFanUser | likeCartoon | unLikeCartoon => exact ⟨hsecond _ _, rfl⟩

/-- What the closure of a read that is served assigns and issues is not for the screen. -/
def Device.Silent (vc : ProfileID) (d : Device) : Prop :=
  ∀ x ∈ d.served, (∀ fan, .profileFan vc fan ∉ x.effects) ∧ ∀ k ∈ x.calls, k.Silent vc

/-- `user.fan` of a profile screen echoes the second writes. -/
def ProfileID.echo (vc : ProfileID) : Echo Call.follow Bool where
  tells := Call.tells vc
  later := Call.laterTells vc
  follow_tells k m := (k.follow_tells vc m).1
  follow_later k m := (k.follow_tells vc m).2

/-- What a call of a service will tell the screen. -/
def ServiceCall.tells (vc : ProfileID) : ServiceCall → Option Bool
  | .fanUsers _ c => c.tells vc
  | .antiFanUser _ c => c.tells vc
  | .likeCartoon _ c => c.tells vc
  | .unLikeCartoon cartoon c => if cartoon.like > 0 then c.tells vc else none

theorem ServiceCall.calls_tells (me : Uid) (vc : ProfileID) (c : ServiceCall) :
    ((c.calls me).filter Call.isWrite).filterMap (Call.tells vc) = [] ∧
    ((c.calls me).filter Call.isWrite).flatMap (Call.laterTells vc) = (c.tells vc).toList := by
  cases c with
  | fanUsers uid c => exact ⟨rfl, List.append_nil _⟩
  | antiFanUser uid c => exact ⟨rfl, List.append_nil _⟩
  | likeCartoon cartoon c => exact ⟨rfl, List.append_nil _⟩
  | unLikeCartoon cartoon c =>
    simp only [calls, CartoonService.unLikeCartoon, tells]
    split
    next => exact ⟨rfl, List.append_nil _⟩
    next => exact ⟨rfl, rfl⟩

/-! ## The screen -/

/-- The callback of `checkUserFans`, asked in `viewDidLoad`. -/
inductive FansCheck where
  | asked
  | served (fans : Bool)
  | delivered
  /-- The answer was an error, and the completion is not called. -/
  | failed
deriving DecidableEq, Repr

/-- `ProfileCollectionViewController` and its device. `viewModel` is the one of the header,
`needsReload` says that `reloadData()` was called and the header not yet made. What the last tap
asked for is `wanted`. -/
structure ProfileScreen where
  device : Device
  user : User
  viewModel : Option User := none
  needsReload : Bool := true
  check : FansCheck := .asked
  wanted : Option Bool := none

inductive ProfileScreenEvent where
  /-- `collectionView(_:viewForSupplementaryElementOfKind:at:)`. -/
  | reload
  /-- The closures of `fetchUserStats` and `fetchCartoons`. -/
  | reloadData
  /-- `editProfile()` of the header; `tabUser` is the user of the tab bar. -/
  | didTapButton (tabUser : Option User)
  | serveCheck (ok : Bool)
  | deliverCheck
  /-- Another screen of the device calls a service. -/
  | elsewhere (c : ServiceCall)
  /-- A write of another user. -/
  | other (write : Write)
  | apply
  | acknowledge (m : Moment)
  | serve (i : Nat) (r : Reply)
  | deliver (i : Nat)

/-- A document that says whom the account follows. -/
def ownedBy (me : Uid) (ref : DocRef) : Bool :=
  match ref.collection with
  | .userStar uid => uid = me
  | .userFan _ => ref.documentID = me
  | _ => false

/-- What a closure assigns on the profile screen. -/
def Effect.onProfile (vc : ProfileID) (s : ProfileScreen) : Effect → ProfileScreen
  | .profileFan vc' fan =>
    if vc' = vc then { s with user := { s.user with fan := fan }, needsReload := true } else s
  | .didLike _ => s
  | .newCartoon _ => s

namespace ProfileScreen

/-- `viewDidLoad()` of a screen opened on `user` by the user `me`. -/
def viewDidLoad (store : Firestore) (user : User) : ProfileScreen where
  device := .opened store
  user := user

/-- The assignments of a closure that has run. -/
def assign (vc : ProfileID) (s : ProfileScreen) (x : Device × List Effect) : ProfileScreen :=
  x.2.foldl (Effect.onProfile vc) { s with device := x.1 }

def step (me : Uid) (vc : ProfileID) (s : ProfileScreen) : ProfileScreenEvent → Option ProfileScreen
  | .reload => some { s with viewModel := some s.user, needsReload := false }
  | .reloadData => some { s with needsReload := true }
  | .didTapButton tabUser =>
    match s.viewModel with
    | none => some s
    | some user =>
      some { s with
        device := s.device.issue (header (some me) tabUser vc user)
        wanted := if tabUser.isSome ∧ user.currentUser (some me) = false then some !user.fan
          else s.wanted }
  | .serveCheck ok =>
    if s.check = .asked then
      let fans := s.device.queue.state.has ⟨.userStar me, s.user.uid⟩
      some { s with check := if ok then .served fans else .failed }
    else none
  | .deliverCheck =>
    match s.check with
    | .served fans => some { s with
        user := { s.user with fan := fans }, needsReload := true, check := .delivered }
    | _ => none
  | .elsewhere c =>
    if c.tells vc = none then some { s with device := s.device.issue (c.calls me) } else none
  | .other w =>
    if ownedBy me w.ref then none
    else some { s with device.queue.state := w.apply s.device.queue.state }
  | .apply => s.device.apply.map fun device => { s with device := device }
  | .acknowledge m => (s.device.acknowledge m).map (s.assign vc)
  | .serve i r => (s.device.serve i r).map fun device => { s with device := device }
  | .deliver i => (s.device.deliver i).map (s.assign vc)

/-- All callbacks have run, and the header is up to date with `self.user`. -/
def AtRest (s : ProfileScreen) : Prop :=
  s.device.Idle ∧ s.needsReload = false ∧ (s.check = .delivered ∨ s.check = .failed)

instance (s : ProfileScreen) : Decidable s.AtRest := inferInstanceAs (Decidable (_ ∧ _ ∧ _))

/-- - Other screens leave the user alone.
- When the closures of all taps have run, the check brings nothing else than what the last tap
  has asked for. -/
def Steady (vc : ProfileID) (s : ProfileScreen) : ProfileScreenEvent → Prop
  | .elsewhere c => c.leaves (.star s.user.uid) = none
  | .deliverCheck => ∀ b ∈ s.wanted, s.check = .served (!b) → vc.echo.pending s.device.queue ≠ []
  | _ => True

/-- The screen after a closure that may assign `user.fan`. -/
def told (s : ProfileScreen) : Option Bool → ProfileScreen
  | none => s
  | some b => { s with user := { s.user with fan := b }, needsReload := true }

instance (vc : ProfileID) (s : ProfileScreen) : ∀ e, Decidable (s.Steady vc e)
  | .elsewhere c => inferInstanceAs (Decidable (c.leaves (.star s.user.uid) = none))
  | .deliverCheck => inferInstanceAs
      (Decidable (∀ b ∈ s.wanted, s.check = .served (!b) → vc.echo.pending s.device.queue ≠ []))
  | .reload => .isTrue trivial
  | .reloadData => .isTrue trivial
  | .didTapButton _ => .isTrue trivial
  | .serveCheck _ => .isTrue trivial
  | .other _ => .isTrue trivial
  | .apply => .isTrue trivial
  | .acknowledge _ => .isTrue trivial
  | .serve .. => .isTrue trivial
  | .deliver _ => .isTrue trivial

/-! ## The invariant -/

/-- What the star document will say when all writes are done. -/
def follows (me uid : Uid) (s : ProfileScreen) : Bool :=
  ((Pair.star uid).mirror me).outcomeFirst s.device.queue

/-- What `self.user.fan` will say when all writes are done. -/
def fan (vc : ProfileID) (s : ProfileScreen) : Bool :=
  landed s.user.fan (vc.echo.pending s.device.queue)

/-- Before the first tap: no write is on its way, and the check brings what is so. -/
structure Untapped (me : Uid) (vc : ProfileID) (uid : Uid) (s : ProfileScreen) : Prop where
  settled : s.device.queue.sent.filterMap ((Pair.star uid).mirror me).putFirst = []
  pending : vc.echo.pending s.device.queue = []
  served : ∀ fans, s.check = .served fans → fans = s.follows me uid
  delivered : s.check = .delivered → s.user.fan = s.follows me uid

/-- All copies are of one user, the closures still to come are known, and the places to which
they lead will say the same. -/
structure Sound (me : Uid) (vc : ProfileID) (uid : Uid) (s : ProfileScreen) : Prop where
  reading : s.device.Reading
  silent : s.device.Silent vc
  user : s.user.uid = uid
  viewModel : ∀ u ∈ s.viewModel, u.uid = uid
  made : s.needsReload = false → s.viewModel = some s.user
  agree : ((Pair.star uid).mirror me).outcomeSecond s.device.queue = s.follows me uid
  tapped : ∀ b, s.wanted = some b → s.follows me uid = b ∧ s.fan vc = b
  untapped : s.wanted = none → s.Untapped me vc uid

variable {me : Uid} {vc : ProfileID} {uid : Uid} {s s' : ProfileScreen}

theorem Sound.viewDidLoad {store : Firestore} {user : User}
    (hagree : store.has ⟨.userStar me, user.uid⟩ = store.has ⟨.userFan user.uid, me⟩) :
    (viewDidLoad store user).Sound me vc user.uid where
  reading := Device.reading_opened store
  silent x hx := by cases hx
  user := rfl
  viewModel u hu := by cases hu
  made h := by cases h
  agree := hagree.symm
  tapped b hb := by cases hb
  untapped _ := ⟨rfl, rfl, nofun, nofun⟩

/-! ## What each event keeps -/

end ProfileScreen

theorem Effect.onProfile_profileFan (vc vc' : ProfileID) (fan : Bool) (s : ProfileScreen) :
    (profileFan vc' fan).onProfile vc s = s.told (if vc' = vc then some fan else none) := by
  simp only [onProfile]
  split <;> rfl

/-- A closure of a write tells the screen what `Call.tells` says. -/
theorem Call.foldl_onProfile (vc : ProfileID) (k : Call) (m : Moment) (s : ProfileScreen) :
    (k.reaction m).effects.foldl (Effect.onProfile vc) s = s.told (k.tells vc) := by
  obtain ⟨auth, request⟩ := k
  cases request with
  | getDocuments q c => rfl
  | getDocument ref c => rfl
  | write w c =>
    cases c with
    | fanUsers | antiFanUser | likeCartoon | unLikeCartoon => rfl
    | screen c =>
      cases c with
      | ignore | liked | commented => rfl
      | antiFanned vc' user => exact Effect.onProfile_profileFan vc vc' false s
      | fanned vc' user currentUser => exact Effect.onProfile_profileFan vc vc' true s

/-- Assignments that are not for the screen. -/
theorem Effect.foldl_onProfile {vc : ProfileID} {effects : List Effect}
    (h : ∀ fan, .profileFan vc fan ∉ effects) (s : ProfileScreen) :
    effects.foldl (Effect.onProfile vc) s = s := by
  induction effects with
  | nil => rfl
  | cons e effects ih =>
    have he : e.onProfile vc s = s := by
      unfold Effect.onProfile
      split
      next vc' fan =>
        refine if_neg fun hvc => h fan ?_
        rw [hvc]
        exact List.mem_cons_self ..
      next => rfl
      next => rfl
    rw [List.foldl_cons, he]
    exact ih fun fan hfan => h fan (List.mem_cons_of_mem _ hfan)

/-- The closures of the reads assign nothing on a profile screen. -/
theorem Call.exec_read_effects {k : Call} (hk : k.isWrite = false) (vc : ProfileID) (r : Reply)
    (s : Firestore) (fan : Bool) : .profileFan vc fan ∉ (k.exec r s).2.effects := by
  intro he
  obtain ⟨auth, request⟩ := k
  cases request with
  | write w c => cases hk
  | getDocuments q c =>
    simp only [Call.exec] at he
    split at he
    · cases c <;> cases he
    · cases he
  | getDocument ref c =>
    simp only [Call.exec] at he
    split at he
    next =>
      cases c with
      | didLike => cases List.mem_singleton.mp he
      | edited =>
        simp only [GetCallback.run] at he
        split at he
        · cases he
        · cases List.mem_singleton.mp he
    next => cases he

/-- Without a call that is about the pair, no write to its first document joins the queue. -/
theorem Device.settled_step {me : Uid} {d d' : Device} {e : DeviceEvent} {p : Pair}
    (hreading : d.Reading) (hstep : d.step me e = some d') (hleaves : e.leaves p = none)
    (h : d.queue.sent.filterMap (p.mirror me).putFirst = []) :
    d'.queue.sent.filterMap (p.mirror me).putFirst = [] := by
  cases e with
  | call c =>
    cases hstep
    have hnone : c.leaves p = none := hleaves
    rw [Device.issue, Outbox.issue, List.filterMap_append, h, (c.puts me p).1, hnone]
    rfl
  | apply =>
    obtain ⟨queue, hqueue, rfl⟩ := Option.map_eq_some_iff.mp hstep
    unfold Outbox.applyHead at hqueue
    split at hqueue
    next => cases hqueue
    next k sent hsent =>
      obtain rfl := Option.some.inj hqueue
      rw [hsent] at h
      exact List.filterMap_eq_nil_iff.mpr fun k' hk' =>
        List.filterMap_eq_nil_iff.mp h k' (List.mem_cons_of_mem _ hk')
  | acknowledge m =>
    obtain ⟨⟨d'', effects⟩, hd, rfl⟩ := Option.map_eq_some_iff.mp hstep
    unfold Device.acknowledge at hd
    split at hd
    next => cases hd
    next k _ _ =>
      obtain ⟨queue, hqueue, he⟩ := Option.map_eq_some_iff.mp hd
      cases he
      unfold Outbox.acknowledgeHead at hqueue
      split at hqueue
      next => cases hqueue
      next k' applied _ =>
        obtain rfl := Option.some.inj hqueue
        rw [List.filterMap_append, h, (p.mirror me).follow_first]
        rfl
  | serve i r =>
    obtain ⟨k, hk, rfl⟩ := Option.map_eq_some_iff.mp hstep
    exact h
  | deliver i =>
    obtain ⟨⟨d'', effects⟩, hd, rfl⟩ := Option.map_eq_some_iff.mp hstep
    obtain ⟨x, hx, he⟩ := Option.map_eq_some_iff.mp hd
    cases he
    have hx' := hreading.served x (List.mem_of_getElem? hx)
    have hunpaired : ∀ k ∈ x.calls.filter Call.isWrite, k.unpaired :=
      fun k hk => hx' k (List.mem_of_mem_filter hk)
    have hputs := (Call.unpaired_puts hunpaired me p).1
    rw [Device.issue, Outbox.issue, List.filterMap_append, hputs, List.append_nil]
    exact h

namespace ProfileScreen

variable {me : Uid} {vc : ProfileID} {uid : Uid} {s s' : ProfileScreen}

/-- An event of the device that is not about the user, with what it tells the screen. -/
theorem Sound.device (h : s.Sound me vc uid) {e : DeviceEvent} {d : Device}
    (hstep : s.device.step me e = some d) (hleaves : e.leaves (.star uid) = none)
    (hsilent : d.Silent vc) (told : Option Bool)
    (hpending : vc.echo.pending s.device.queue = told.toList ++ vc.echo.pending d.queue) :
    (ProfileScreen.told { s with device := d } told).Sound me vc uid := by
  obtain ⟨hreading, hfirst, hsecond⟩ := Device.step_outcome h.reading hstep (.star uid)
  rw [hleaves] at hfirst hsecond
  have hsettled := fun hpast =>
    Device.settled_step h.reading hstep hleaves (h.untapped hpast).settled
  cases told with
  | none =>
    have hfollows : follows me uid { s with device := d } = s.follows me uid := hfirst
    have hfan : fan vc { s with device := d } = s.fan vc := by
      show landed s.user.fan (vc.echo.pending d.queue) = s.fan vc
      rw [fan, hpending]
      rfl
    refine ⟨hreading, hsilent, h.user, h.viewModel, h.made, ?_, fun b hb => ?_, fun hnone => ?_⟩
    · exact hsecond.trans (h.agree.trans hfirst.symm)
    · rw [told, hfollows, hfan]
      exact h.tapped b hb
    · have hold := h.untapped hnone
      refine ⟨hsettled hnone, hpending.symm.trans hold.pending, ?_, ?_⟩
      · rw [told, hfollows]
        exact hold.served
      · rw [told, hfollows]
        exact hold.delivered
  | some b =>
    refine ⟨hreading, hsilent, h.user, h.viewModel, nofun, ?_, fun b' hb' => ?_, fun hnone => ?_⟩
    · exact hsecond.trans (h.agree.trans hfirst.symm)
    · obtain ⟨hfollows, hfan⟩ := h.tapped b' hb'
      refine ⟨hfirst.trans hfollows, ?_⟩
      show landed b (vc.echo.pending d.queue) = b'
      rw [← hfan, fan, hpending, landed_toList_append]
      rfl
    · -- before the first tap no closure is left that could assign
      have hold := (h.untapped hnone).pending
      rw [hpending] at hold
      cases hold

/-- A follow or an unfollow of the user by a tap. -/
theorem Sound.tap (h : s.Sound me vc uid) {c : ServiceCall} {b : Bool}
    (hleaves : c.leaves (.star uid) = some b) (htells : c.tells vc = some b) :
    Sound me vc uid { s with device := s.device.issue (c.calls me), wanted := some b } := by
  have hstep : s.device.step me (.call c) = some (s.device.issue (c.calls me)) := rfl
  obtain ⟨hreading, hfirst, hsecond⟩ := Device.step_outcome h.reading hstep (.star uid)
  rw [DeviceEvent.leaves, hleaves] at hfirst hsecond
  have hpending : vc.echo.pending (s.device.issue (c.calls me)).queue =
      vc.echo.pending s.device.queue ++ [b] := by
    obtain ⟨hnow, hlater⟩ := c.calls_tells me vc
    rw [Device.issue, Echo.pending_issue _ _ hnow]
    exact congrArg _ (hlater.trans (congrArg Option.toList htells))
  refine ⟨hreading, h.silent, h.user, h.viewModel, h.made, ?_, fun b' hb' => ?_,
    fun hnone => absurd hnone (Option.some_ne_none b)⟩
  · exact hsecond.trans hfirst.symm
  · obtain rfl := Option.some.inj hb'
    refine ⟨hfirst, ?_⟩
    rw [fan, hpending, landed_append]
    rfl

/-- What the button does. -/
theorem header_tap (me : Uid) (tabUser : Option User) (vc : ProfileID) (user : User) :
    (¬ (tabUser.isSome ∧ user.currentUser (some me) = false) ∧
      header (some me) tabUser vc user = []) ∨
    (tabUser.isSome ∧ user.currentUser (some me) = false) ∧ ∃ c : ServiceCall,
      header (some me) tabUser vc user = c.calls me ∧
      c.leaves (.star user.uid) = some !user.fan ∧ c.tells vc = some !user.fan := by
  cases tabUser with
  | none => exact Or.inl ⟨by simp, rfl⟩
  | some currentUser =>
    cases hcurrent : user.currentUser (some me) with
    | true => exact Or.inl ⟨by simp, by simp [header, hcurrent]⟩
    | false =>
      refine Or.inr ⟨⟨rfl, rfl⟩, ?_⟩
      cases hfan : user.fan with
      | true =>
        refine ⟨.antiFanUser user.uid (.antiFanned vc user), ?_, if_pos rfl, if_pos rfl⟩
        simp [header, hcurrent, hfan, ServiceCall.calls]
      | false =>
        refine ⟨.fanUsers user.uid (.fanned vc user currentUser), ?_, if_pos rfl, if_pos rfl⟩
        simp [header, hcurrent, hfan, ServiceCall.calls]

/-- The answer of the check, when it does not come in between. -/
theorem Sound.deliverCheck (h : s.Sound me vc uid) {fans : Bool} (hcheck : s.check = .served fans)
    (hsteady : s.Steady vc .deliverCheck) :
    Sound me vc uid { s with
      user := { s.user with fan := fans }, needsReload := true, check := .delivered } := by
  refine ⟨h.reading, h.silent, h.user, h.viewModel, nofun, h.agree, fun b hb => ?_, fun hnone => ?_⟩
  · obtain ⟨hfollows, hfan⟩ := h.tapped b hb
    refine ⟨hfollows, ?_⟩
    show landed fans (vc.echo.pending s.device.queue) = b
    unfold fan at hfan
    by_cases hpending : vc.echo.pending s.device.queue = []
    · have hne : fans ≠ !b := fun hfans => hsteady b hb (hfans ▸ hcheck) hpending
      rw [hpending]
      show fans = b
      cases fans <;> cases b <;> simp at hne ⊢
    · rw [← hfan]
      exact landed_of_ne_nil hpending _ _
  · have hold := h.untapped hnone
    exact ⟨hold.settled, hold.pending, nofun, fun _ => hold.served fans hcheck⟩

/-- A write of somebody else changes no place that the screen is about. -/
theorem Sound.other (h : s.Sound me vc uid) {w : Write} (hother : ownedBy me w.ref = false) :
    Sound me vc uid { s with device.queue.state := w.apply s.device.queue.state } := by
  have hstar : w.ref ≠ ⟨.userStar me, uid⟩ := by
    intro href
    simp [ownedBy, href] at hother
  have hfan : w.ref ≠ ⟨.userFan uid, me⟩ := by
    intro href
    simp [ownedBy, href] at hother
  have hfirst : follows me uid { s with device.queue.state := w.apply s.device.queue.state } =
      s.follows me uid := by
    show landed (Store.has (w.apply s.device.queue.state) ⟨.userStar me, uid⟩) _ = landed _ _
    rw [Store.has_apply_ne hstar]
    rfl
  have hsecond : ((Pair.star uid).mirror me).outcomeSecond
      { s.device.queue with state := w.apply s.device.queue.state } =
      ((Pair.star uid).mirror me).outcomeSecond s.device.queue := by
    show landed (Store.has (w.apply s.device.queue.state) ⟨.userFan uid, me⟩) _ = landed _ _
    rw [Store.has_apply_ne hfan]
    rfl
  refine ⟨⟨h.reading.reads, h.reading.served⟩, h.silent, h.user, h.viewModel, h.made,
    hsecond.trans (h.agree.trans hfirst.symm), fun b hb => ?_, fun hnone => ?_⟩
  · rw [hfirst]
    exact h.tapped b hb
  · have hold := h.untapped hnone
    refine ⟨hold.settled, hold.pending, ?_, ?_⟩
    · rw [hfirst]
      exact hold.served
    · rw [hfirst]
      exact hold.delivered

/-- A tap does what the header shows, or nothing. -/
theorem Sound.didTapButton (h : s.Sound me vc uid) {tabUser : Option User}
    (hstep : s.step me vc (.didTapButton tabUser) = some s') : s'.Sound me vc uid := by
  simp only [ProfileScreen.step] at hstep
  split at hstep
  next =>
    cases hstep
    exact h
  next user huser =>
    obtain rfl := Option.some.inj hstep
    rcases header_tap me tabUser vc user with
      ⟨hguard, hcalls⟩ | ⟨hguard, c, hcalls, hleaves, htells⟩
    · rw [if_neg hguard, hcalls]
      have hnothing : s.device.issue [] = s.device := by
        simp [Device.issue, Outbox.issue]
      rw [hnothing]
      exact h
    · rw [if_pos hguard, hcalls]
      rw [h.viewModel user huser] at hleaves
      exact h.tap hleaves htells

/-- The check finds what the star document will still say when the writes are done: if there was
no tap, none of them is about it. -/
theorem Sound.serveCheck (h : s.Sound me vc uid) {ok : Bool}
    (hstep : s.step me vc (.serveCheck ok) = some s') : s'.Sound me vc uid := by
  obtain ⟨hasked, hstep⟩ := Option.ite_none_right_eq_some.mp hstep
  obtain rfl := Option.some.inj hstep
  refine ⟨h.reading, h.silent, h.user, h.viewModel, h.made, h.agree, h.tapped, fun hnone => ?_⟩
  have hold := h.untapped hnone
  refine ⟨hold.settled, hold.pending, fun fans hfans => ?_, fun hdelivered => ?_⟩
  · split at hfans
    next =>
      obtain rfl := FansCheck.served.inj hfans
      show Store.has _ _ = landed (Store.has _ _) _
      rw [hold.settled, h.user]
      rfl
    next => cases hfans
  · dsimp only at hdelivered
    split at hdelivered <;> cases hdelivered

/-- Calls that tell the screen nothing leave what is still to come. -/
theorem pending_issue_silent (d : Device) {ks : List Call}
    (hnow : (ks.filter Call.isWrite).filterMap (Call.tells vc) = [])
    (hlater : (ks.filter Call.isWrite).flatMap (Call.laterTells vc) = []) :
    vc.echo.pending d.queue = vc.echo.pending (d.issue ks).queue := by
  show _ = vc.echo.pending (d.queue.issue _)
  have hlater' : (ks.filter Call.isWrite).flatMap vc.echo.later = [] := hlater
  rw [Echo.pending_issue _ _ hnow, hlater', List.append_nil]

theorem Sound.elsewhere (h : s.Sound me vc uid) {c : ServiceCall} (htells : c.tells vc = none)
    (hleaves : c.leaves (.star uid) = none) :
    Sound me vc uid { s with device := s.device.issue (c.calls me) } := by
  obtain ⟨hnow, hlater⟩ := c.calls_tells me vc
  rw [htells] at hlater
  exact h.device (e := .call c) rfl hleaves h.silent none (pending_issue_silent _ hnow hlater)

theorem Sound.acknowledge (h : s.Sound me vc uid) {m : Moment}
    (hstep : s.step me vc (.acknowledge m) = some s') : s'.Sound me vc uid := by
  obtain ⟨⟨d, effects⟩, hd, rfl⟩ := Option.map_eq_some_iff.mp hstep
  have hd' : s.device.step me (.acknowledge m) = some d := by
    show (s.device.acknowledge m).map Prod.fst = some d
    rw [hd]
    rfl
  unfold Device.acknowledge at hd
  split at hd
  next => cases hd
  next k applied happlied =>
    obtain ⟨queue, hqueue, he⟩ := Option.map_eq_some_iff.mp hd
    obtain ⟨rfl, rfl⟩ := Prod.mk.inj he
    rw [assign, Call.foldl_onProfile]
    refine h.device hd' rfl h.silent _ (vc.echo.pending_acknowledge ?_ hqueue)
    rw [happlied]
    rfl

/-- The other reads of the device are no business of the screen. -/
theorem Sound.serve (h : s.Sound me vc uid) {i : Nat} {r : Reply}
    (hstep : s.step me vc (.serve i r) = some s') : s'.Sound me vc uid := by
  obtain ⟨d, hd, rfl⟩ := Option.map_eq_some_iff.mp hstep
  obtain ⟨k, hk, rfl⟩ := Option.map_eq_some_iff.mp hd
  refine h.device (e := .serve i r) hd rfl (fun x hx => ?_) none rfl
  rcases List.mem_append.mp hx with hx | hx
  · exact h.silent x hx
  · obtain rfl := List.mem_singleton.mp hx
    have hread := h.reading.reads k (List.mem_of_getElem? hk)
    exact ⟨Call.exec_read_effects hread vc r _, Call.exec_silent hread r _⟩

theorem Sound.deliver (h : s.Sound me vc uid) {i : Nat}
    (hstep : s.step me vc (.deliver i) = some s') : s'.Sound me vc uid := by
  obtain ⟨⟨d, effects⟩, hd, rfl⟩ := Option.map_eq_some_iff.mp hstep
  have hd' : s.device.step me (.deliver i) = some d := by
    show (s.device.deliver i).map Prod.fst = some d
    rw [hd]
    rfl
  obtain ⟨x, hx, he⟩ := Option.map_eq_some_iff.mp hd
  obtain ⟨rfl, rfl⟩ := Prod.mk.inj he
  obtain ⟨heffects, hcalls⟩ := h.silent x (List.mem_of_getElem? hx)
  obtain ⟨hnow, hlater⟩ := Call.silent_filterMap fun k hk =>
    hcalls k (List.mem_of_mem_filter (p := Call.isWrite) hk)
  rw [assign, Effect.foldl_onProfile heffects]
  refine h.device hd' rfl (fun y hy => h.silent y (List.mem_of_mem_eraseIdx hy)) none ?_
  exact pending_issue_silent _ hnow hlater

theorem Sound.step {e : ProfileScreenEvent} (h : s.Sound me vc uid) (hsteady : s.Steady vc e)
    (hstep : s.step me vc e = some s') : s'.Sound me vc uid := by
  cases e with
  | reload =>
    cases hstep
    refine ⟨h.reading, h.silent, h.user, fun u hu => ?_, fun _ => rfl, h.agree, h.tapped, ?_⟩
    · obtain rfl := Option.some.inj hu
      exact h.user
    · exact fun hnone => ⟨(h.untapped hnone).settled, (h.untapped hnone).pending,
        (h.untapped hnone).served, (h.untapped hnone).delivered⟩
  | reloadData =>
    cases hstep
    exact ⟨h.reading, h.silent, h.user, h.viewModel, nofun, h.agree, h.tapped, fun hnone =>
      ⟨(h.untapped hnone).settled, (h.untapped hnone).pending, (h.untapped hnone).served,
        (h.untapped hnone).delivered⟩⟩
  | didTapButton tabUser => exact h.didTapButton hstep
  | serveCheck ok => exact h.serveCheck hstep
  | deliverCheck =>
    simp only [ProfileScreen.step] at hstep
    split at hstep
    next fans hcheck =>
      obtain rfl := Option.some.inj hstep
      exact h.deliverCheck hcheck hsteady
    next => cases hstep
  | elsewhere c =>
    obtain ⟨htells, hstep⟩ := Option.ite_none_right_eq_some.mp hstep
    obtain rfl := Option.some.inj hstep
    exact h.elsewhere htells (h.user ▸ hsteady)
  | other w =>
    simp only [ProfileScreen.step] at hstep
    split at hstep
    next => cases hstep
    next hother =>
      obtain rfl := Option.some.inj hstep
      exact h.other ((Bool.not_eq_true _).mp hother)
  | apply =>
    obtain ⟨d, hd, rfl⟩ := Option.map_eq_some_iff.mp hstep
    obtain ⟨queue, hqueue, rfl⟩ := Option.map_eq_some_iff.mp hd
    exact h.device (e := .apply) hd rfl h.silent none (vc.echo.pending_apply hqueue).symm
  | acknowledge m => exact h.acknowledge hstep
  | serve i r => exact h.serve hstep
  | deliver i => exact h.deliver hstep

/-! ## At rest -/

/-- The button is tapped any number of times, however fast, while other screens of the device
work on other documents and other users write. When all callbacks have run, the star document, the
fan document and the header say the same, and if there was a tap it is what the last one
asked for: the opposite of what the header showed. Only without a tap, and with an error in
answer to the check, may the header show something else. -/
theorem button_follows {store : Firestore} {user : User} {es : List ProfileScreenEvent}
    (hagree : store.has ⟨.userStar me, user.uid⟩ = store.has ⟨.userFan user.uid, me⟩)
    (hrun : run (step me vc) (viewDidLoad store user) es = some s)
    (hsteady : Along (step me vc) (Steady vc) (viewDidLoad store user) es) (hrest : s.AtRest) :
    ∃ shown, s.viewModel = some shown ∧
      s.device.queue.state.has ⟨.userStar me, user.uid⟩ =
        s.device.queue.state.has ⟨.userFan user.uid, me⟩ ∧
      (s.check = .delivered ∨ s.wanted ≠ none →
        shown.fan = s.device.queue.state.has ⟨.userStar me, user.uid⟩) ∧
      ∀ b, s.wanted = some b → shown.fan = b := by
  have hstep : ∀ (s : ProfileScreen) e s', s.Sound me vc user.uid → s.Steady vc e →
      s.step me vc e = some s' → s'.Sound me vc user.uid :=
    fun _ _ _ h hsteady hstep => h.step hsteady hstep
  have h := run_inv_along hstep es (.viewDidLoad hagree) hsteady hrun
  obtain ⟨hidle, hreload, -⟩ := hrest
  -- with nothing on its way the outcomes are what is so
  have hfirst : s.follows me user.uid = s.device.queue.state.has ⟨.userStar me, user.uid⟩ :=
    ((Pair.star user.uid).mirror me).outcomeFirst_idle hidle.1
  have hsecond : s.follows me user.uid = s.device.queue.state.has ⟨.userFan user.uid, me⟩ :=
    h.agree.symm.trans (((Pair.star user.uid).mirror me).outcomeSecond_idle hidle.1)
  have hfan : s.fan vc = s.user.fan := by
    rw [fan, vc.echo.pending_idle hidle.1]
    rfl
  have htapped : ∀ b, s.wanted = some b → s.user.fan = b ∧ s.follows me user.uid = b := by
    intro b hb
    obtain ⟨hfollows, hfan'⟩ := h.tapped b hb
    exact ⟨hfan.symm.trans hfan', hfollows⟩
  refine ⟨s.user, h.made hreload, hfirst.symm.trans hsecond, fun hcase => ?_,
    fun b hb => (htapped b hb).1⟩
  rw [← hfirst]
  cases hwanted : s.wanted with
  | none =>
    rcases hcase with hdelivered | htap
    · exact (h.untapped hwanted).delivered hdelivered
    · exact absurd hwanted htap
  | some b => exact (htapped b hwanted).1.trans (htapped b hwanted).2.symm

/-- A follow, a second tap before the button has changed, and an unfollow while the closures of
the second tap are still to come. -/
def impatience : List ProfileScreenEvent :=
  let reader := User.init (.ofList [("uid", .string "reader")])
  let m : Moment := ⟨"feedback", ⟨0, 0⟩⟩
  [.reload, .didTapButton (some reader), .serveCheck true, .apply, .acknowledge m,
   .didTapButton (some reader), .apply, .apply, .deliverCheck, .acknowledge m, .reload,
   .didTapButton (some reader), .acknowledge m, .apply, .apply, .apply, .acknowledge m,
   .acknowledge m, .acknowledge m, .apply, .apply, .acknowledge m, .acknowledge m,
   .serve 0 ⟨true, m⟩, .serve 0 ⟨true, m⟩, .serve 0 ⟨true, m⟩, .deliver 0, .deliver 0, .deliver 0,
   .reload]

theorem button_follows_impatience :
    let author := User.init (.ofList [("uid", .string "author")])
    ∃ s shown, run (step "reader" 0) (viewDidLoad ∅ author) impatience = some s ∧
      s.viewModel = some shown ∧ shown.fan = false ∧
      s.device.queue.state.has ⟨.userStar "reader", "author"⟩ =
        s.device.queue.state.has ⟨.userFan "author", "reader"⟩ := by
  intro author
  have hrun : run (step "reader" 0) (viewDidLoad ∅ author) impatience =
      some ((run (step "reader" 0) (viewDidLoad ∅ author) impatience).get (by decide)) :=
    (Option.some_get _).symm
  have hsteady : Along (step "reader" 0) (Steady 0) (viewDidLoad ∅ author) impatience := by decide
  obtain ⟨shown, hshown, hsame, -, hwanted⟩ := button_follows rfl hrun hsteady (by decide)
  exact ⟨_, shown, hrun, hshown, hwanted false (by decide), hsame⟩

end ProfileScreen

end Toontagram
