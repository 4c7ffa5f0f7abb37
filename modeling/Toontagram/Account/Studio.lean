import Toontagram.Account.Phones
import Toontagram.Account.Session
import Toontagram.Document.Signature

/-!
# Under whose name an account writes

The tab bar of `Account/Session.lean` with the screens that write. A comment, a
notification and a cartoon carry the names of a `User` that is a copy of the tab
bar's `user`, and the copy may be older than what the tab bar has:

- `SetUpViewController` and `UploadViewController` have the `user` of the moment in which the
  drawing was begun;
- the closures of a comment, a like and a follow have the one of the moment of the tap, and
  sign the notification with it when the last of the writes before it is answered.

An upload also has the `uid` of the moment in which it was begun, the rest is done by the
account that is signed in when a closure runs.

`Studio.proper` asks of a step that creates a document with names on it that the copy was taken
when the profile of the account that is signed in now was the last to have arrived.
`tabUser_of_timely`: with timely answers the tab bar has the profile of its account, and with
proper steps from then on every document is signed by the account that writes it;
`Studio.proper_of_credited` is the converse for comments and notifications.
-/

namespace Toontagram

open Lib (Along DocWrite Flight Store run run_inv_along)
open CartoonService (Upload)

/-- A copy of `tab.user`, which a screen or a closure has. -/
structure Copy where
  user : User
  /-- The account whose fetch brought it. No client reads it. -/
  fetched : Option Uid
deriving DecidableEq

/-- The tab bar and the screens that write. -/
structure Studio where
  tab : Tab
  /-- The `user` of `SetUpViewController`, while it is open. -/
  drawing : Option Copy
  /-- The uploads whose pictures are being stored, each with the account that began it. -/
  uploads : List (Uid × Copy)
  /-- The calls of the screens that are not answered. -/
  calls : List (Copy × Call)
  /-- All calls that the screens have issued. No client reads it. -/
  written : List Call

inductive StudioEvent where
  | session (e : SessionEvent)
  /-- `tabBarController(_:shouldSelect:)` opens the drawing screens. -/
  | shouldSelect
  | vcDidFinish
  /-- `uploadCartoon` is called. -/
  | uploadCartoon
  /-- The pictures of the `i`-th upload are stored. -/
  | uploaded (i : Nat) (u : Upload)
  /-- A comment, a like, a follow. -/
  | act (o : Operation)
  | answer (i : Nat) (r : Reply)
deriving DecidableEq

namespace Studio

def store (n : Studio) : Firestore := n.tab.state.store

def auth (n : Studio) : Option Uid := n.tab.state.auth

/-- The tab bar's user, as a screen copies it. -/
def copy (n : Studio) : Option Copy := n.tab.state.user.map fun user => ⟨user, n.tab.state.fetched⟩

/-- Calls that sign with the copy. -/
def issue (n : Studio) (copy : Copy) (ks : List Call) : Studio :=
  { n with calls := n.calls ++ ks.map fun k => (copy, k), written := n.written ++ ks }

/-- Firestore with other contents. -/
def withStore (n : Studio) (store : Firestore) : Studio :=
  { n with tab := { n.tab with state := { n.tab.state with store := store } } }

/-- What an event issues, and the copy that signs it. -/
def issues (n : Studio) : StudioEvent → Option (Copy × List Call)
  | .uploaded i u =>
    n.uploads[i]?.map fun (uid, copy) => (copy, CartoonService.uploaded n.auth uid u)
  | .act o => n.copy.map fun copy => (copy, o.calls)
  | .answer i r =>
    n.calls[i]?.map fun (copy, k) => (copy, ((k.on n.auth).exec r n.store).2.calls)
  | _ => none

/-- The state in which they are issued. -/
def advance (n : Studio) : StudioEvent → Option Studio
  | .session e => (n.tab.step e).map fun tab => { n with tab := tab }
  -- `SetUpViewController(user: user!)`
  | .shouldSelect => n.copy.map fun copy => { n with drawing := some copy }
  | .vcDidFinish => some { n with drawing := none }
  | .uploadCartoon =>
    n.drawing.bind fun copy => n.auth.map fun uid =>
      { n with uploads := n.uploads ++ [(uid, copy)] }
  | .uploaded i u =>
    n.uploads[i]?.bind fun (_, copy) =>
      if u.user = copy.user then some { n with uploads := n.uploads.eraseIdx i } else none
  | .act o =>
    n.copy.bind fun copy =>
      if o.auth = n.auth ∧ o.posts = none ∧ o.user = some copy.user then some n else none
  | .answer i r =>
    n.calls[i]?.map fun (_, k) =>
      { n with calls := n.calls.eraseIdx i }.withStore ((k.on n.auth).exec r n.store).1

/-- One event. Fetches and registrations succeed; a call of a screen may fail. -/
def step (n : Studio) (e : StudioEvent) : Option Studio :=
  (n.advance e).map fun m =>
    match n.issues e with
    | none => m
    | some (copy, ks) => m.issue copy ks

/-- `viewDidLoad`, with the account that is signed in. -/
def viewDidLoad (store : Firestore) (auth : Option Uid) : Studio :=
  ⟨.viewDidLoad store auth, none, [], [], []⟩

end Studio

/-- The call creates a document that shows the name of its author. -/
def Call.signs (k : Call) : Bool :=
  match k.request with
  | .write (.setData ref _) _ => ref.collection.signature.isSome
  | _ => false

namespace Studio

/-- The account that began an upload. -/
def uploader (n : Studio) : StudioEvent → Option Uid
  | .uploaded i _ => n.uploads[i]?.map Prod.fst
  | _ => n.auth

/-- A document with names on it is created with a copy that was taken when the last profile that
had arrived was that of the account that is signed in now; and an upload was begun by
this account. -/
def proper (n : Studio) (e : StudioEvent) : Bool :=
  (n.issues e).all fun (copy, ks) =>
    ks.all (fun k => !k.signs) || (copy.fetched = n.auth && n.uploader e = n.auth)

/-- An answer of a fetch comes in time. -/
def timely (n : Studio) : StudioEvent → Bool
  | .session e => n.tab.timely e
  | _ => true

end Studio

/-! ## What a call signs -/

/-- The call touches no profile, and its closures sign with the user. -/
def Call.Hands (user : User) (k : Call) : Prop :=
  ∀ w c, k.request = .write w c → w.ref.collection ≠ .user ∧ ∀ u, c.user = some u → u = user

/-- The document that the call creates shows the account and the user's name. -/
def Call.Carries (uid : Uid) (user : User) (k : Call) : Prop :=
  ∀ ref data c key name, k.request = .write (.setData ref data) c →
    ref.collection.signature = some (key, name) →
      data "uid" = some (.string uid) ∧ data key = some (.string (name user))

section carries

variable {user : User} {uid : Uid} {auth : Option Uid} {k k' : Call} {m : Moment} {r : Reply}
  {s : Firestore}

theorem Call.hands_write {w : Write} {c : Completion} (hw : w.ref.collection ≠ .user)
    (hc : ∀ u, c.user = some u → u = user) : Call.Hands user ⟨auth, .write w c⟩ := by
  intro w' c' hreq
  obtain ⟨rfl, rfl⟩ := Request.write.inj hreq
  exact ⟨hw, hc⟩

theorem Call.hands_ignore {w : Write} (hw : w.ref.collection ≠ .user) :
    Call.Hands user ⟨auth, .write w (.screen .ignore)⟩ :=
  hands_write hw fun _ hu => by cases hu

theorem Call.carries_of_none {w : Write} {c : Completion} (h : w.ref.collection.signature = none) :
    Call.Carries uid user ⟨auth, .write w c⟩ := by
  intro ref data c' key name hreq hkey
  obtain ⟨rfl, -⟩ := Request.write.inj hreq
  rw [show ref.collection.signature = none from h] at hkey
  cases hkey

theorem CartoonService.updateMainUserAfterFan_carries {author : User} {didFan : Bool}
    (hk : k ∈ updateMainUserAfterFan auth author didFan) : k.Hands user ∧ k.Carries uid user := by
  obtain ⟨v, rfl⟩ := mem_updateMainUserAfterFan hk
  constructor
  · intro w c hreq
    cases hreq
  · intro ref data c key name hreq
    cases hreq

/-- A notification is signed by the user it is sent with. -/
theorem FeedBackService.carries {toUid : Uid} {type : FeedBackType} {cartoon : Option Cartoon}
    (hk : k ∈ uploadFeedBack auth toUid type cartoon user m) :
    k.Hands user ∧ k.Carries user.uid user := by
  obtain ⟨-, -, -, rfl⟩ := mem_uploadFeedBack hk
  refine ⟨Call.hands_ignore (by simp [DocWrite.ref]), ?_⟩
  intro ref data c key name hreq hkey
  cases hreq
  obtain ⟨rfl, rfl⟩ := Prod.mk.inj (Option.some.inj hkey)
  cases cartoon <;> exact ⟨rfl, rfl⟩

theorem ScreenCompletion.carries {c : ScreenCompletion} (h : ∀ u, c.user = some u → u = user)
    (hk : k ∈ (c.run auth m).calls) : k.Hands user ∧ k.Carries user.uid user := by
  cases c with
  | ignore => cases hk
  | antiFanned vc author => exact CartoonService.updateMainUserAfterFan_carries hk
  | fanned vc author currentUser =>
    obtain rfl := h currentUser rfl
    rcases List.mem_append.mp hk with hk | hk
    · exact FeedBackService.carries hk
    · exact CartoonService.updateMainUserAfterFan_carries hk
  | liked cartoon tapped | commented cartoon tapped =>
    obtain rfl := h tapped rfl
    simp only [run] at hk
    exact FeedBackService.carries hk

theorem Completion.carries {c : Completion} (h : ∀ u, c.user = some u → u = user)
    (hk : k ∈ (c.run auth m).calls) : k.Hands user ∧ k.Carries user.uid user := by
  cases c with
  | screen c => exact ScreenCompletion.carries h hk
  | fanUsers v currentUid c | antiFanUser v currentUid c
  | likeCartoon v cartoonId c | unLikeCartoon v cartoonId c =>
    obtain rfl := List.mem_singleton.mp hk
    exact ⟨Call.hands_write (by simp [DocWrite.ref]) h, Call.carries_of_none rfl⟩

/-- What the closure of a call issues, the user signs that the call was issued with. -/
theorem Call.Hands.exec (h : k.Hands user) (hk' : k' ∈ (k.exec r s).2.calls) :
    k'.Hands user ∧ k'.Carries user.uid user := by
  by_cases hread : ∀ w c, k.request ≠ .write w c
  · obtain ⟨b, v, cartoonID, rfl⟩ := Call.mem_exec_read hread hk'
    exact ⟨Call.hands_ignore (by simp), Call.carries_of_none (by rw [DocWrite.ref_mark]; rfl)⟩
  · push Not at hread
    obtain ⟨w, c, hwrite⟩ := hread
    simp only [Call.exec, hwrite] at hk'
    exact Completion.carries (h w c hwrite).2 hk'

/-- The profiles stay as they are. -/
theorem Call.Hands.lookup_exec (h : k.Hands user) (v : Uid) :
    (k.exec r s).1.lookup ⟨.user, v⟩ = s.lookup ⟨.user, v⟩ := by
  obtain ⟨auth, request⟩ := k
  cases request with
  | write w c =>
    simp only [Call.exec]
    split
    next =>
      refine Store.lookup_apply_ne fun href => (h w c rfl).1 ?_
      rw [href]
    next => rfl
  | getDocuments q c => rfl
  | getDocument ref c => rfl

/-- A comment, a like and a follow are signed by the user of the screen. -/
theorem Operation.carries {o : Operation} (hk : k ∈ o.calls) (hposts : o.posts = none)
    (huser : o.user = some user) : k.Hands user ∧ k.Carries user.uid user := by
  cases Operation.issues hk with
  | post | fans => cases hposts
  | @comment auth currentUser cartoon comment m data =>
    obtain rfl := Option.some.inj huser
    have hdata := List.mem_singleton.mp hk
    simp only [Call.mk.injEq, Request.write.injEq, DocWrite.setData.injEq] at hdata
    rw [hdata.2.1.2]
    refine ⟨Call.hands_write (by simp [DocWrite.ref]) fun u hu => (Option.some.inj hu).symm, ?_⟩
    intro ref data c key name hreq hkey
    cases hreq
    obtain ⟨rfl, rfl⟩ := Prod.mk.inj (Option.some.inj hkey)
    exact ⟨rfl, rfl⟩
  | follow | likeMark =>
    obtain rfl := Option.some.inj huser
    refine ⟨Call.hands_write (by simp [DocWrite.ref]) fun u hu => ?_, Call.carries_of_none rfl⟩
    exact (Option.some.inj hu).symm
  | unfollow =>
    refine ⟨Call.hands_write (by simp [DocWrite.ref]) fun u hu => ?_, Call.carries_of_none rfl⟩
    cases hu
  | likeNumber =>
    refine ⟨Call.hands_ignore (by simp [DocWrite.ref]), ?_⟩
    intro ref data c key name hreq
    cases hreq
  | unLikeNumber | unLikeMark | edit | edited | fan | unFan | deleteCartoon | editUserData
  | userRegister => cases huser

/-- A cartoon is signed by the account that began the upload and the user of the screen. -/
theorem CartoonService.uploaded_carries {u : Upload} (hk : k ∈ uploaded auth uid u) :
    k.auth = auth ∧ k.Hands u.user ∧ k.Carries uid u.user := by
  rcases List.mem_cons.mp hk with rfl | hk
  · refine ⟨rfl, Call.hands_ignore (by simp [DocWrite.ref]), ?_⟩
    intro ref data c key name hreq hkey
    cases hreq
    obtain ⟨rfl, rfl⟩ := Prod.mk.inj (Option.some.inj hkey)
    exact ⟨rfl, rfl⟩
  · cases auth with
    | none => cases hk
    | some v =>
      rw [List.mem_singleton.mp hk]
      refine ⟨rfl, fun w c hreq => ?_, fun ref data c key name hreq => ?_⟩
      · cases hreq
      · cases hreq

end carries

/-! ## The invariant -/

/-- The copy is the profile of the account whose fetch brought it. -/
def Copy.Of (s : Firestore) (copy : Copy) : Prop :=
  ∃ uid data, copy.fetched = some uid ∧ s.lookup ⟨.user, uid⟩ = some data ∧
    copy.user = User.init data

/-- Profiles that were there are there, with the same contents. -/
def Kept (s s' : Firestore) : Prop :=
  ∀ uid data, s.lookup ⟨.user, uid⟩ = some data → s'.lookup ⟨.user, uid⟩ = some data

theorem Copy.Of.mono {s s' : Firestore} (hkept : Kept s s') {copy : Copy} (h : copy.Of s) :
    copy.Of s' := by
  obtain ⟨uid, data, hfetched, hdata, huser⟩ := h
  exact ⟨uid, data, hfetched, hkept uid data hdata, huser⟩

/-- The document that the call creates is signed by the account of the call, with the name of
its profile. -/
def Call.Credited (s : Firestore) (k : Call) : Prop :=
  ∀ ref data c key name, k.request = .write (.setData ref data) c →
    ref.collection.signature = some (key, name) →
      ∃ uid profile, k.auth = some uid ∧ data "uid" = some (.string uid) ∧
        s.lookup ⟨.user, uid⟩ = some profile ∧
        data key = some (.string (name (User.init profile)))

theorem Call.Credited.mono {s s' : Firestore} (hkept : Kept s s') {k : Call} (h : k.Credited s) :
    k.Credited s' := by
  intro ref data c key name hreq hkey
  obtain ⟨uid, profile, hauth, huid, hprofile, hname⟩ := h ref data c key name hreq hkey
  exact ⟨uid, profile, hauth, huid, hkept uid profile hprofile, hname⟩

namespace Studio

/-- Every copy is the profile it was fetched as, and the closures sign with their copies. -/
structure Sound (n : Studio) : Prop where
  tab : n.tab.Sound
  copy : ∀ copy, n.copy = some copy → copy.Of n.store
  drawing : ∀ copy, n.drawing = some copy → copy.Of n.store
  uploads : ∀ q ∈ n.uploads, q.2.Of n.store
  calls : ∀ p ∈ n.calls, p.1.Of n.store ∧ p.2.Hands p.1.user

variable {n n' m : Studio}

theorem Sound.viewDidLoad {store : Firestore} {auth : Option Uid} (hstore : Tab.Profiled store)
    (hauth : ∀ uid, auth = some uid → store.has ⟨.user, uid⟩ = true) :
    (viewDidLoad store auth).Sound := by
  refine ⟨.viewDidLoad hstore hauth, fun copy h => ?_, fun copy h => ?_, fun q hq => ?_,
    fun p hp => ?_⟩
  · cases h
  · cases h
  · cases hq
  · cases hp

/-- The user of the tab bar is the profile that was fetched last. -/
theorem copy_step {tab : Tab} {e : SessionEvent} (hstep : n.tab.step e = some tab) {copy : Copy}
    (hcopy : Studio.copy { n with tab := tab } = some copy) :
    n.copy = some copy ∨ copy.Of n.store := by
  by_cases he : ∀ i, e ≠ .answer i
  · obtain ⟨-, huser, hfetched⟩ := Tab.step_of_not_answer he hstep
    left
    rw [← hcopy, Studio.copy, Studio.copy, huser, hfetched]
  · push Not at he
    obtain ⟨i, rfl⟩ := he
    obtain ⟨pre, k, post, hin, -, rfl⟩ := Flight.answer_cases hstep
    cases k with
    | setData r => exact Or.inl hcopy
    | fetchUser uid =>
      rw [Studio.copy, SessionCall.exec_fetchUser] at hcopy
      cases hdata : n.tab.state.store.lookup ⟨.user, uid⟩ with
      | none =>
        simp only [hdata, Option.map_none, Option.none_or] at hcopy
        exact Or.inl hcopy
      | some data =>
        simp only [hdata, Option.map_some, Option.some_or, Option.some.injEq] at hcopy
        subst hcopy
        exact Or.inr ⟨uid, data, rfl, hdata, rfl⟩

/-- The profiles and the copies, after a session event. -/
theorem Sound.session (h : n.Sound) {e : SessionEvent} (htimely : n.tab.timely e = true) {tab : Tab}
    (hstep : n.tab.step e = some tab) :
    Sound { n with tab := tab } ∧ Kept n.store tab.state.store := by
  have hkept : Kept n.store tab.state.store := fun uid data hdata => h.tab.lookup_kept hstep hdata
  refine ⟨⟨h.tab.step htimely hstep, fun copy hcopy => ?_, fun copy hcopy => ?_, fun q hq => ?_,
    fun p hp => ?_⟩, hkept⟩
  · rcases copy_step hstep hcopy with hold | hof
    · exact (h.copy copy hold).mono hkept
    · exact hof.mono hkept
  · exact (h.drawing copy hcopy).mono hkept
  · exact (h.uploads q hq).mono hkept
  · exact (h.calls p hp).imp_left (Copy.Of.mono hkept)

/-- The answer of a screen's call leaves the profiles alone. -/
theorem Sound.reply (h : n.Sound) {i : Nat} {copy : Copy} {k : Call}
    (hk : n.calls[i]? = some (copy, k)) (r : Reply) :
    Sound ({ n with calls := n.calls.eraseIdx i }.withStore ((k.on n.auth).exec r n.store).1) ∧
      Kept n.store ((k.on n.auth).exec r n.store).1 := by
  have hhands : (k.on n.auth).Hands copy.user := (h.calls _ (List.mem_of_getElem? hk)).2
  have hlookup : ∀ uid, ((k.on n.auth).exec r n.store).1.lookup ⟨.user, uid⟩ =
      n.store.lookup ⟨.user, uid⟩ := fun uid => hhands.lookup_exec uid
  have hkept : Kept n.store ((k.on n.auth).exec r n.store).1 := by
    intro uid data hdata
    rw [hlookup, hdata]
  refine ⟨⟨h.tab.withStore hlookup, fun c hc => (h.copy c hc).mono hkept,
    fun c hc => (h.drawing c hc).mono hkept, fun q hq => (h.uploads q hq).mono hkept,
    fun p hp => ?_⟩, hkept⟩
  have hp : p ∈ n.calls := List.mem_of_mem_eraseIdx hp
  exact (h.calls p hp).imp_left (Copy.Of.mono hkept)

theorem Sound.advance (h : n.Sound) {e : StudioEvent} (htimely : n.timely e = true)
    (hstep : n.advance e = some m) : m.Sound ∧ Kept n.store m.store ∧ m.written = n.written := by
  cases e with
  | session e =>
    obtain ⟨tab, htab, rfl⟩ := Option.map_eq_some_iff.mp hstep
    obtain ⟨hsound, hkept⟩ := h.session htimely htab
    exact ⟨hsound, hkept, rfl⟩
  | shouldSelect =>
    obtain ⟨copy, hcopy, rfl⟩ := Option.map_eq_some_iff.mp hstep
    refine ⟨⟨h.tab, h.copy, fun c hc => ?_, h.uploads, h.calls⟩, fun _ _ hdata => hdata, rfl⟩
    exact Option.some.inj hc ▸ h.copy copy hcopy
  | vcDidFinish =>
    obtain rfl := Option.some.inj hstep
    refine ⟨⟨h.tab, h.copy, fun c hc => ?_, h.uploads, h.calls⟩, fun _ _ hdata => hdata, rfl⟩
    cases hc
  | uploadCartoon =>
    obtain ⟨copy, hcopy, hstep⟩ := Option.bind_eq_some_iff.mp hstep
    obtain ⟨uid, -, rfl⟩ := Option.map_eq_some_iff.mp hstep
    refine ⟨⟨h.tab, h.copy, h.drawing, fun q hq => ?_, h.calls⟩, fun _ _ hdata => hdata, rfl⟩
    rcases List.mem_append.mp hq with hq | hq
    · exact h.uploads q hq
    · rw [List.mem_singleton.mp hq]
      exact h.drawing copy hcopy
  | uploaded i u =>
    obtain ⟨⟨uid, copy⟩, -, hstep⟩ := Option.bind_eq_some_iff.mp hstep
    obtain ⟨-, hstep⟩ := Option.ite_none_right_eq_some.mp hstep
    obtain rfl := Option.some.inj hstep
    exact ⟨⟨h.tab, h.copy, h.drawing, fun q hq => h.uploads q (List.mem_of_mem_eraseIdx hq),
      h.calls⟩, fun _ _ hdata => hdata, rfl⟩
  | act o =>
    obtain ⟨copy, -, hstep⟩ := Option.bind_eq_some_iff.mp hstep
    obtain ⟨-, hstep⟩ := Option.ite_none_right_eq_some.mp hstep
    obtain rfl := Option.some.inj hstep
    exact ⟨h, fun _ _ hdata => hdata, rfl⟩
  | answer i r =>
    obtain ⟨⟨copy, k⟩, hk, rfl⟩ := Option.map_eq_some_iff.mp hstep
    obtain ⟨hsound, hkept⟩ := h.reply hk r
    exact ⟨hsound, hkept, rfl⟩

/-- What an event issues is the account's, and signed with its copy. -/
theorem Sound.issues (h : n.Sound) {e : StudioEvent} (hstep : n.advance e = some m) {copy : Copy}
    {ks : List Call} (hissues : n.issues e = some (copy, ks)) :
    copy.Of n.store ∧ ∀ k ∈ ks, k.auth = n.auth ∧ k.Hands copy.user ∧
      ∃ uid, k.Carries uid copy.user ∧ (uid = copy.user.uid ∨
        (∃ i u, e = .uploaded i u) ∧ n.uploader e = some uid) := by
  cases e with
  | session | shouldSelect | vcDidFinish | uploadCartoon => cases hissues
  | uploaded i u =>
    obtain ⟨⟨uid, copy'⟩, hi, hissued⟩ := Option.map_eq_some_iff.mp hissues
    obtain ⟨rfl, rfl⟩ := Prod.mk.inj hissued
    obtain ⟨q, hq, hstep⟩ := Option.bind_eq_some_iff.mp hstep
    obtain rfl := Option.some.inj (hi.symm.trans hq)
    obtain ⟨huser, -⟩ := Option.ite_none_right_eq_some.mp hstep
    refine ⟨h.uploads _ (List.mem_of_getElem? hi), fun k hk => ?_⟩
    obtain ⟨hauth, hhands, hcarries⟩ := CartoonService.uploaded_carries hk
    rw [huser] at hhands hcarries
    exact ⟨hauth, hhands, uid, hcarries, Or.inr ⟨⟨i, u, rfl⟩, by rw [uploader, hi]; rfl⟩⟩
  | act o =>
    obtain ⟨copy', hcopy, hissued⟩ := Option.map_eq_some_iff.mp hissues
    obtain ⟨rfl, rfl⟩ := Prod.mk.inj hissued
    obtain ⟨c, hc, hstep⟩ := Option.bind_eq_some_iff.mp hstep
    obtain rfl := Option.some.inj (hcopy.symm.trans hc)
    obtain ⟨⟨hauth, hposts, huser⟩, -⟩ := Option.ite_none_right_eq_some.mp hstep
    refine ⟨h.copy _ hcopy, fun k hk => ?_⟩
    obtain ⟨hhands, hcarries⟩ := Operation.carries hk hposts huser
    exact ⟨(Operation.auth_calls hk).trans hauth, hhands, _, hcarries, Or.inl rfl⟩
  | answer i r =>
    obtain ⟨⟨copy', k⟩, hi, hissued⟩ := Option.map_eq_some_iff.mp hissues
    obtain ⟨rfl, rfl⟩ := Prod.mk.inj hissued
    obtain ⟨hof, hhands⟩ := h.calls _ (List.mem_of_getElem? hi)
    have hon : (k.on n.auth).Hands copy'.user := hhands
    refine ⟨hof, fun k' hk' => ?_⟩
    obtain ⟨hhands', hcarries⟩ := hon.exec hk'
    exact ⟨Call.auth_exec hk', hhands', _, hcarries, Or.inl rfl⟩

/-- The copy bears the `uid` of the account whose fetch brought it. -/
theorem Sound.uid_of (h : n.Sound) {copy : Copy} (hof : copy.Of n.store) :
    copy.fetched = some copy.user.uid ∧
      ∃ data, n.store.lookup ⟨.user, copy.user.uid⟩ = some data ∧ copy.user = User.init data := by
  obtain ⟨uid, data, hfetched, hdata, huser⟩ := hof
  have huid : copy.user.uid = uid := by
    rw [huser, User.init, h.tab.profiled uid data hdata]
    rfl
  rw [huid]
  exact ⟨hfetched, data, hdata, huser⟩

/-- In a proper step the documents are signed by the account that writes them. -/
theorem Sound.credited (h : n.Sound) {e : StudioEvent} (hproper : n.proper e = true)
    (hstep : n.advance e = some m) {copy : Copy} {ks : List Call}
    (hissues : n.issues e = some (copy, ks)) : ∀ k ∈ ks, k.Credited n.store := by
  obtain ⟨hof, hks⟩ := h.issues hstep hissues
  obtain ⟨hfetched, profile, hprofile, huser⟩ := h.uid_of hof
  intro k hk ref data c key name hreq hkey
  obtain ⟨hauth, -, uid, hcarries, huid⟩ := hks k hk
  obtain ⟨hdataUid, hname⟩ := hcarries ref data c key name hreq hkey
  rw [proper, hissues, Option.all_some, Bool.or_eq_true, List.all_eq_true, Bool.and_eq_true,
    decide_eq_true_eq, decide_eq_true_eq] at hproper
  rcases hproper with hnone | ⟨hcopy, huploader⟩
  · -- the call creates a document with a name on it
    have hsigns : k.signs = true := by
      simp only [Call.signs, hreq]
      rw [hkey]
      rfl
    have := hnone k hk
    rw [hsigns] at this
    cases this
  · have hown : n.auth = some copy.user.uid := hcopy.symm.trans hfetched
    have huid : uid = copy.user.uid := by
      rcases huid with huid | ⟨-, huid⟩
      · exact huid
      · exact Option.some.inj (huid.symm.trans (huploader.trans hown))
    rw [huid] at hdataUid
    refine ⟨copy.user.uid, profile, hauth.trans hown, hdataUid, hprofile, ?_⟩
    rw [← huser]
    exact hname

/-- Otherwise a comment or a notification is not. -/
theorem proper_of_credited (h : n.Sound) {e : StudioEvent} (hupload : ∀ i u, e ≠ .uploaded i u)
    (hstep : n.advance e = some m) {copy : Copy} {ks : List Call}
    (hissues : n.issues e = some (copy, ks)) (hcredited : ∀ k ∈ ks, k.Credited n.store) :
    n.proper e = true := by
  obtain ⟨hof, hks⟩ := h.issues hstep hissues
  obtain ⟨hfetched, -⟩ := h.uid_of hof
  have huploader : n.uploader e = n.auth := by
    cases e with
    | uploaded i u => exact absurd rfl (hupload i u)
    | session | shouldSelect | vcDidFinish | uploadCartoon | act | answer => rfl
  rw [proper, hissues, Option.all_some, Bool.or_eq_true, List.all_eq_true]
  by_cases hsigns : ∀ k ∈ ks, k.signs = false
  · left
    intro k hk
    rw [hsigns k hk]
    rfl
  · right
    push Not at hsigns
    obtain ⟨k, hk, hsigns⟩ := hsigns
    obtain ⟨ref, data, c, hreq, key, name, hkey⟩ : ∃ ref data c,
        k.request = .write (.setData ref data) c ∧ ∃ key name,
          ref.collection.signature = some (key, name) := by
      unfold Call.signs at hsigns
      split at hsigns
      next ref data c hreq =>
        obtain ⟨⟨key, name⟩, hkey⟩ := Option.isSome_iff_exists.mp ((Bool.not_eq_false _).mp hsigns)
        exact ⟨ref, data, c, hreq, key, name, hkey⟩
      next => exact absurd rfl hsigns
    obtain ⟨hauth, -, uid, hcarries, huid⟩ := hks k hk
    obtain ⟨v, -, hv, hdata, -⟩ := hcredited k hk ref data c key name hreq hkey
    have hsame : v = uid := by
      have := hdata.symm.trans (hcarries ref data c key name hreq hkey).1
      simpa using this
    have hown : n.auth = some uid := by
      rw [← hauth, hv, hsame]
    have huid : uid = copy.user.uid := by
      rcases huid with huid | ⟨⟨i, u, he⟩, -⟩
      · exact huid
      · exact absurd he (hupload i u)
    rw [Bool.and_eq_true, decide_eq_true_eq, decide_eq_true_eq]
    exact ⟨by rw [hfetched, hown, huid], huploader⟩

/-- One step: the copies stay good, and a proper step writes documents that are signed by their
account. -/
theorem Sound.step (h : n.Sound) {e : StudioEvent} (htimely : n.timely e = true)
    (hstep : n.step e = some n') : n'.Sound ∧ Kept n.store n'.store ∧
      ∃ ks, n'.written = n.written ++ ks ∧
        (n.proper e = true → ∀ k ∈ ks, k.Credited n'.store) := by
  obtain ⟨m, hm, hn'⟩ := Option.map_eq_some_iff.mp hstep
  obtain ⟨hsound, hkept, hwritten⟩ := h.advance htimely hm
  split at hn'
  next =>
    obtain rfl := hn'
    refine ⟨hsound, hkept, [], by rw [hwritten, List.append_nil], fun _ k hk => ?_⟩
    cases hk
  next copy ks hissues =>
    obtain rfl := hn'
    obtain ⟨hof, hks⟩ := h.issues hm hissues
    refine ⟨⟨hsound.tab, hsound.copy, hsound.drawing, hsound.uploads, fun p hp => ?_⟩, hkept, ks,
      by rw [issue, hwritten], fun hproper k hk => ?_⟩
    · rcases List.mem_append.mp hp with hp | hp
      · exact hsound.calls p hp
      · obtain ⟨k, hk, rfl⟩ := List.mem_map.mp hp
        exact ⟨hof.mono hkept, (hks k hk).2.1⟩
    · exact (h.credited hproper hm hissues k hk).mono hkept

theorem Sound.run {es : List StudioEvent} (h : n.Sound)
    (htimely : Along Studio.step (fun n e => n.timely e = true) n es)
    (hrun : Lib.run Studio.step n es = some n') : n'.Sound :=
  run_inv_along (P := Sound) (fun _ _ _ h hok hstep => (h.step hok hstep).1) es h htimely hrun

/-- In a run of timely answers and proper steps every document is signed by its account. -/
theorem Sound.written {es : List StudioEvent} (h : n.Sound)
    (hok : Along Studio.step (fun n e => n.timely e = true ∧ n.proper e = true) n es)
    (hrun : Lib.run Studio.step n es = some n') :
    ∃ ks, n'.written = n.written ++ ks ∧ ∀ k ∈ ks, k.Credited n'.store := by
  have hstep : ∀ (m : Studio) e m',
      (m.Sound ∧ ∃ ks, m.written = n.written ++ ks ∧ ∀ k ∈ ks, k.Credited m.store) →
      (m.timely e = true ∧ m.proper e = true) → m.step e = some m' →
      m'.Sound ∧ ∃ ks, m'.written = n.written ++ ks ∧ ∀ k ∈ ks, k.Credited m'.store := by
    rintro m e m' ⟨hm, ks, hwritten, hks⟩ ⟨htimely, hproper⟩ hstep
    obtain ⟨hm', hkept, ks', hwritten', hks'⟩ := hm.step htimely hstep
    refine ⟨hm', ks ++ ks', by rw [hwritten', hwritten, List.append_assoc], fun k hk => ?_⟩
    rcases List.mem_append.mp hk with hk | hk
    · exact (hks k hk).mono hkept
    · exact hks' hproper k hk
  have hstart : n.Sound ∧ ∃ ks, n.written = n.written ++ ks ∧ ∀ k ∈ ks, k.Credited n.store := by
    refine ⟨h, [], (List.append_nil _).symm, fun k hk => ?_⟩
    cases hk
  exact (run_inv_along hstep es hstart hok hrun).2

end Studio

/-- For every interleaving of sign-ins, sign-ups, sign-outs, confirmed alerts, what the screens
do and answers, however late. If each answer of a fetch is timely, then whenever
`authComplete` has run for the last sign-in and every fetch is answered, the user of the tab bar
is the account that is signed in, with its profile. In every run that goes on from there, again
with timely answers, and in which the steps are proper, whatever document is created
carries the `uid` of the account that creates it and the name of its profile. -/
theorem tabUser_of_timely {store : Firestore} {auth : Option Uid} {es : List StudioEvent}
    {n : Studio} (hstore : Tab.Profiled store)
    (hauth : ∀ uid, auth = some uid → store.has ⟨.user, uid⟩ = true)
    (hrun : run Studio.step (.viewDidLoad store auth) es = some n)
    (htimely : Along Studio.step (fun n e => n.timely e = true) (.viewDidLoad store auth) es)
    (hsettled : n.tab.Settled) {b : Uid} (hb : n.auth = some b) :
    (∃ data user, n.store.lookup ⟨.user, b⟩ = some data ∧ n.tab.state.user = some user ∧
      user = User.init data ∧ user.uid = b) ∧
    ∀ (es' : List StudioEvent) (n' : Studio), run Studio.step n es' = some n' →
      Along Studio.step (fun n e => n.timely e = true ∧ n.proper e = true) n es' →
      ∃ ks, n'.written = n.written ++ ks ∧ ∀ k ∈ ks, k.Credited n'.store := by
  have hsound : n.Sound := (Studio.Sound.viewDidLoad hstore hauth).run htimely hrun
  refine ⟨?_, fun es' n' hrun' hok => hsound.written hok hrun'⟩
  obtain ⟨-, hmem | ⟨data, hdata, huser⟩⟩ := hsound.tab.current hsettled.1 b hb
  · exact absurd hmem (hsettled.2 b)
  · refine ⟨data, User.init data, hdata, huser, rfl, ?_⟩
    rw [User.init, hsound.tab.profiled b data hdata]
    rfl

/-- Three accounts with profiles. -/
def threeProfiles : Firestore :=
  registered (["anna", "berta", "carla"].map fun uid => ⟨"", uid, uid, "", #v["", ""], uid⟩)

/-- Anna switches to Berta and on to Carla, and Berta's profile arrives last. -/
def switches : List StudioEvent :=
  ([.answer 0, .signOut, .signIn "berta", .tapOK 0, .signOut, .signIn "carla", .tapOK 0,
    .answer 1, .answer 0] : List SessionEvent).map .session

/-- Every fetch is answered, Carla is signed in and the tab bar has Berta. -/
theorem tabUser_overtaken : ∃ n,
    run Studio.step (.viewDidLoad threeProfiles (some "anna")) switches = some n ∧
      n.tab.state.completed = true ∧ n.tab.inflight = [] ∧ n.auth = some "carla" ∧
      n.tab.state.user.map (·.uid) = some "berta" :=
  ⟨(run Studio.step (.viewDidLoad threeProfiles (some "anna")) switches).get (by decide),
    (Option.some_get _).symm, by decide, by decide, by decide, by decide⟩

/-- Anna switches to Berta and waits. -/
def handover : List StudioEvent := switches.take 4 ++ [.session (.answer 0)]

/-- Berta comments on a cartoon of Anna and uploads one. -/
def bertasDay : List StudioEvent :=
  let profile : AuthService.Registration := ⟨"", "berta", "berta", "", #v["", ""], "berta"⟩
  let berta := User.init profile.data
  let cartoon := Cartoon.init ⟨0, 0⟩ "c" (.ofList [("uid", .string "anna")])
  let reply : Reply := ⟨true, ⟨"feedback", ⟨2, 0⟩⟩⟩
  [.act (.loadComment (some "berta") (some berta) cartoon "" ⟨"comment", ⟨1, 0⟩⟩), .shouldSelect,
   .uploadCartoon, .answer 0 reply, .uploaded 0 ⟨"", "", "", berta, #v["", "", "", "", ""],
     ⟨3, 0⟩, "d"⟩, .vcDidFinish]

/-- `tabUser_of_timely` when Anna switches to Berta and waits. -/
theorem tabUser_of_timely_switch : ∃ n n',
    run Studio.step (.viewDidLoad threeProfiles (some "anna")) handover = some n ∧
      (∃ user, n.tab.state.user = some user ∧ user.uid = "berta") ∧
      run Studio.step n bertasDay = some n' ∧ n'.written.length = 4 ∧
      ∀ k ∈ n'.written, k.Credited n'.store := by
  let n := (run Studio.step (.viewDidLoad threeProfiles (some "anna")) handover).get (by decide)
  let n' := (run Studio.step n bertasDay).get (by decide)
  have hrun : run Studio.step (.viewDidLoad threeProfiles (some "anna")) handover = some n :=
    (Option.some_get _).symm
  have hrun' : run Studio.step n bertasDay = some n' := (Option.some_get _).symm
  have hquiet : n.tab.inflight = [] := by decide
  have hsettled : n.tab.Settled := by
    refine ⟨by decide, fun uid h => ?_⟩
    rw [hquiet] at h
    cases h
  have hauth : ∀ uid, some "anna" = some uid → threeProfiles.has ⟨.user, uid⟩ = true := by
    intro uid h
    obtain rfl := Option.some.inj h
    decide
  obtain ⟨⟨data, user, -, huser, -, huid⟩, hwrites⟩ :=
    tabUser_of_timely (registered_profiled _) hauth hrun (by decide) hsettled (b := "berta")
      (by decide)
  obtain ⟨ks, hwritten, hks⟩ := hwrites bertasDay n' hrun' (by decide)
  have hnone : n.written.length = 0 := by decide
  rw [List.length_eq_zero_iff.mp hnone, List.nil_append] at hwritten
  refine ⟨n, n', hrun, ⟨user, huser, huid⟩, hrun', by decide, ?_⟩
  rw [hwritten]
  exact hks

end Toontagram
