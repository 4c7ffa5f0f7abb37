import Mathlib.Data.List.Infix
import Toontagram.Document.Inbox

/-!
# Names that are never out of date

A cartoon, a comment and a notification carry the name of the account they come from, copied
from the profile that the screen had fetched when they were sent. The profile may have
been edited since, but an edit is about pictures and the introduction, and no profile is
removed: so the copy is still the name that the profile has (`signatures_hold`), however old
the copy of the profile was that a screen held, whatever is in flight and whichever calls
fail.
-/

namespace Toontagram

open Lib (Along DocWrite Fields Store replay run run_inv_along)
open CartoonService (Upload)
open UserService (fetchUser)

/-- The field of a document that shows the name of its author, and which name it is. -/
def Collection.signature : Collection → Option (String × (User → String))
  | .cartoon => some ("username", User.name)
  | .comments _ => some ("userProfilePenname", User.penname)
  | .userFeedback _ => some ("userName", User.penname)
  | _ => none

/-- The user has a profile with the same names. -/
def Known (s : Firestore) (user : User) : Prop :=
  ∃ profile, fetchUser s user.uid true = some profile ∧ profile.name = user.name ∧
    profile.penname = user.penname

/-- The document is signed by a user that the store knows. -/
def SignedBy (s : Firestore) (user : User) (key : String) (name : User → String)
    (data : Dictionary) : Prop :=
  Known s user ∧ data "uid" = some (.string user.uid) ∧ data key = some (.string (name user))

def Signed (s : Firestore) (ref : DocRef) (data : Dictionary) : Prop :=
  ∀ key name, ref.collection.signature = some (key, name) → ∃ user, SignedBy s user key name data

/-- The write signs what it creates, and updates no signature. -/
def Write.Signs (s : Firestore) : Write → Prop
  | .setData ref data => Signed s ref data
  | .updateData ref fields => ∀ key name, ref.collection.signature = some (key, name) →
    fields "uid" = none ∧ fields key = none
  | .delete _ => True

/-- The user that a completion will sign with. -/
def ScreenCompletion.user : ScreenCompletion → Option User
  | .fanned _ _ currentUser => some currentUser
  | .liked _ user => some user
  | .commented _ user => some user
  | _ => none

def Completion.user : Completion → Option User
  | .screen c => c.user
  | .fanUsers _ _ c => c.user
  | .antiFanUser _ _ c => c.user
  | .likeCartoon _ _ c => c.user
  | .unLikeCartoon _ _ c => c.user

/-- What the call and its closures will write is signed. -/
def Call.Signs (s : Firestore) (k : Call) : Prop :=
  ∀ w c, k.request = .write w c → Write.Signs s w ∧ ∀ user, c.user = some user → Known s user

section signs

variable {s s' : Firestore}

theorem Write.Signs.keeps {w : Write} (h : Write.Signs s w) : w.Keeps (Signed s) := by
  cases w with
  | setData ref data => exact h
  | updateData ref fields =>
    intro data hdata key name hkey
    obtain ⟨user, hknown, huid, hname⟩ := hdata key name hkey
    obtain ⟨hnoUid, hnoName⟩ := h key name hkey
    refine ⟨user, hknown, ?_, ?_⟩
    · rw [Fields.merge_of_none hnoUid, huid]
    · rw [Fields.merge_of_none hnoName, hname]
  | delete ref => trivial

/-- As long as the profiles are known, signatures stay good. -/
theorem Signed.mono (hknown : ∀ user, Known s user → Known s' user) {ref : DocRef}
    {data : Dictionary} (h : Signed s ref data) : Signed s' ref data := by
  intro key name hkey
  obtain ⟨user, hs, hdata⟩ := h key name hkey
  exact ⟨user, hknown user hs, hdata⟩

theorem Call.Signs.mono (hknown : ∀ user, Known s user → Known s' user) {k : Call}
    (h : k.Signs s) : k.Signs s' := by
  intro w c hreq
  obtain ⟨hw, hc⟩ := h w c hreq
  refine ⟨?_, fun user huser => hknown user (hc user huser)⟩
  cases w with
  | setData ref data => exact Signed.mono hknown hw
  | updateData ref fields => exact hw
  | delete ref => trivial

/-- A write of a collection without signatures. -/
theorem signs_of_none {w : Write} (h : w.ref.collection.signature = none) : Write.Signs s w := by
  have hno : ∀ key name, w.ref.collection.signature ≠ some (key, name) := by
    intro key name hkey
    rw [h] at hkey
    cases hkey
  cases w with
  | setData ref data => exact fun key name hkey => absurd hkey (hno key name)
  | updateData ref fields => exact fun key name hkey => absurd hkey (hno key name)
  | delete ref => trivial

/-! ## Answers -/

/-- A notification is signed by the user it is sent with. -/
theorem FeedBackService.signs {auth : Option Uid} {toUid : Uid} {type : FeedBackType}
    {cartoon : Option Cartoon} {user : User} {m : Moment} {k : Call} (huser : Known s user)
    (hk : k ∈ uploadFeedBack auth toUid type cartoon user m) : k.Signs s := by
  obtain ⟨-, -, -, rfl⟩ := mem_uploadFeedBack hk
  intro w c hreq
  cases hreq
  refine ⟨?_, fun user hnone => by cases hnone⟩
  intro key name hkey
  obtain ⟨rfl, rfl⟩ := Prod.mk.inj (Option.some.inj hkey)
  refine ⟨user, huser, ?_, ?_⟩ <;> cases cartoon <;> rfl

theorem ScreenCompletion.signs {c : ScreenCompletion}
    (h : ∀ user, c.user = some user → Known s user) {auth : Option Uid} {m : Moment} {k : Call}
    (hk : k ∈ (c.run auth m).calls) : k.Signs s := by
  have hloop : ∀ {user didFan}, k ∈ CartoonService.updateMainUserAfterFan auth user didFan →
      k.Signs s := by
    intro user didFan hk
    obtain ⟨uid, rfl⟩ := CartoonService.mem_updateMainUserAfterFan hk
    intro w c hreq
    cases hreq
  cases c with
  | ignore => cases hk
  | antiFanned vc user => exact hloop hk
  | fanned vc user currentUser =>
    rcases List.mem_append.mp hk with hk | hk
    · exact FeedBackService.signs (h currentUser rfl) hk
    · exact hloop hk
  | liked cartoon user | commented cartoon user =>
    simp only [run] at hk
    exact FeedBackService.signs (h user rfl) hk

theorem Completion.signs {c : Completion} (h : ∀ user, c.user = some user → Known s user)
    {auth : Option Uid} {m : Moment} {k : Call} (hk : k ∈ (c.run auth m).calls) : k.Signs s := by
  cases c with
  | screen c => exact c.signs h hk
  | fanUsers uid currentUid c | antiFanUser uid currentUid c
  | likeCartoon uid cartoonId c | unLikeCartoon uid cartoonId c =>
    obtain rfl := List.mem_singleton.mp hk
    intro w c' hreq
    cases hreq
    exact ⟨signs_of_none rfl, h⟩

/-- What the closure of a call issues signs with the users that the call knew. -/
theorem Call.Signs.exec {k k' : Call} (h : k.Signs s) {r : Reply}
    (hk' : k' ∈ (k.exec r s').2.calls) : k'.Signs s := by
  by_cases hread : ∀ w c, k.request ≠ .write w c
  · obtain ⟨b, uid, cartoonID, rfl⟩ := Call.mem_exec_read hread hk'
    intro w c hreq
    cases hreq
    exact ⟨signs_of_none (by rw [DocWrite.ref_mark]; rfl), fun user hnone => by cases hnone⟩
  · push Not at hread
    obtain ⟨w, c, hwrite⟩ := hread
    simp only [Call.exec, hwrite] at hk'
    exact Completion.signs (h w c hwrite).2 hk'

end signs

/-! ## Operations -/

/-- The user that the screen of an operation holds. -/
def Operation.user : Operation → Option User
  | .action (.didTapButton _ tabUser _ _) => tabUser
  | .action (.uploadCartoon _ u) => some u.user
  | .action (.likeCartoon _ _ user) => some user
  | .loadComment _ tabUser _ _ _ => tabUser
  | _ => none

/-- Who uploads does so with the own profile. -/
def Operation.ownUpload : Operation → Bool
  | .action (.uploadCartoon auth u) => ownTab auth (some u.user)
  | _ => true

/-- What an operation issues is signed by the user of its screen. -/
theorem Operation.signs {o : Operation} {k : Call} (hk : k ∈ o.calls) {s : Firestore}
    (huser : ∀ user, o.user = some user → Known s user) (hown : o.ownUpload = true) :
    k.Signs s := by
  intro w c hreq
  cases Operation.issues hk with
  | @post a u =>
    cases hreq
    refine ⟨?_, fun user hnone => by cases hnone⟩
    intro key name hkey
    obtain ⟨rfl, rfl⟩ := Prod.mk.inj (Option.some.inj hkey)
    -- the document has the `uid` of the account and the name of the screen's user
    have ha : a = u.user.uid := Option.some.inj (ownTab_some hown)
    refine ⟨u.user, huser u.user rfl, ?_, rfl⟩
    rw [← ha]
    rfl
  | @comment auth currentUser cartoon comment m data =>
    cases hreq
    refine ⟨?_, fun user hsome => huser user hsome⟩
    obtain hdata := List.mem_singleton.mp hk
    simp only [Call.mk.injEq, Request.write.injEq, DocWrite.setData.injEq] at hdata
    rw [hdata.2.1.2]
    intro key name hkey
    obtain ⟨rfl, rfl⟩ := Prod.mk.inj (Option.some.inj hkey)
    exact ⟨currentUser, huser currentUser rfl, rfl, rfl⟩
  -- an update names neither its author nor the name that is shown
  | likeNumber | unLikeNumber | edit =>
    cases hreq
    refine ⟨?_, fun user hnone => by cases hnone⟩
    intro key name hkey
    obtain ⟨rfl, rfl⟩ := Prod.mk.inj (Option.some.inj hkey)
    exact ⟨rfl, rfl⟩
  | follow | likeMark =>
    cases hreq
    exact ⟨signs_of_none rfl, fun user hsome => huser user hsome⟩
  | deleteCartoon =>
    cases hreq
    exact ⟨trivial, fun user hnone => by cases hnone⟩
  | fans | edited => cases hreq
  | unfollow | unLikeMark | fan | unFan | editUserData | userRegister =>
    cases hreq
    exact ⟨signs_of_none rfl, fun user hnone => by cases hnone⟩

/-! ## Runs -/

namespace App

/-- The user is a copy of a profile that has been fetched at some time, whatever the screen
has set `fan` to since. -/
def fetched (n : App) (user : User) : Bool :=
  n.state.log.inits.any fun past =>
    fetchUser (replay Entry.write past) user.uid true == some { user with fan := false }

/-- The screens hold users that were fetched, and who uploads does so with the own profile. -/
def fetches (n : App) : Event → Bool
  | .act o => o.user.all n.fetched && o.ownUpload
  | _ => true

variable {n n' : App}

/-- A write leaves a profile there with the names it has, if it does not create it. -/
theorem known_apply {s : Firestore} {o : Operation} {w : Write}
    (htop : w.ref.collection.top = true → TopWrite o w) {user : User}
    (hsets : Write.sets ⟨.user, user.uid⟩ w = false) (h : Known s user) :
    Known (w.apply s) user := by
  obtain ⟨profile, hfetch, hnames⟩ := h
  obtain ⟨data, hdata, rfl⟩ := Option.map_eq_some_iff.mp hfetch
  by_cases href : w.ref = ⟨.user, user.uid⟩
  · cases htop (by rw [href]; rfl) with
    | editUserData auth edited str intro =>
      have hlookup := Store.lookup_apply_updateData s ⟨.user, edited.uid⟩ ⟨.user, user.uid⟩
        (UserService.edited str intro)
      have hedited : (⟨.user, edited.uid⟩ : DocRef) = ⟨.user, user.uid⟩ := href
      rw [if_pos hedited, hdata] at hlookup
      exact ⟨_, congrArg (Option.map User.init) hlookup, hnames⟩
    -- a profile that is there is not registered a second time
    | userRegister r =>
      have hset : Write.sets ⟨.user, user.uid⟩ (.setData ⟨.user, r.uid⟩ r.data) = true :=
        decide_eq_true href
      rw [hset] at hsets
      cases hsets
    | upload | like | unLike | edit | deleteCartoon => cases href
  · have hlookup := Store.lookup_apply_ne (s := s) href
    exact ⟨User.init data, congrArg (Option.map User.init) (hlookup.trans hdata), hnames⟩

theorem Sound.known_exec (h : n.Sound) {t : Task} (ht : t ∈ n.inflight) (r : Reply) {user : User}
    (hknown : Known n.state.store user) : Known (t.call.exec r n.state.store).1 user := by
  have hstored : n.state.store.has ⟨.user, user.uid⟩ = true := by
    obtain ⟨profile, hfetch, -⟩ := hknown
    obtain ⟨data, hdata, -⟩ := Option.map_eq_some_iff.mp hfetch
    rw [Store.has, hdata]
    rfl
  have htop : (⟨.user, user.uid⟩ : DocRef).collection.top = true := rfl
  -- the profile has been created, and no call in flight creates it again
  have hnot := h.not_sets htop (h.set_of_has hstored) t ht
  rcases answered_cases t r n.state.store with ⟨-, hstore⟩ | ⟨w, c, hreq, -, hstore⟩
  · rw [hstore]
    exact hknown
  · rw [hstore]
    rw [Call.sets, hreq] at hnot
    exact known_apply (fun htop => h.flight t ht w c hreq htop) hnot hknown

/-- Documents and calls are signed by users that are known, and whoever has been known still
is. -/
structure SignsAll (n : App) : Prop where
  sound : n.Sound
  store : ∀ ref data, n.state.store.lookup ref = some data → Signed n.state.store ref data
  flight : ∀ t ∈ n.inflight, t.call.Signs n.state.store
  past : ∀ past, past <+: n.state.log → ∀ user, Known (replay Entry.write past) user →
    Known n.state.store user

theorem SignsAll.opened : (opened ∅).SignsAll where
  sound := .opened
  store := fun _ _ hdata => nomatch hdata
  flight := fun _ ht => nomatch ht
  past := by
    intro past hpast user hknown
    obtain rfl := List.prefix_nil.mp hpast
    exact hknown

theorem SignsAll.answer (h : n.SignsAll) {i : Nat} {r : Reply}
    (hstep : n.step (.answer i r) = some n') : n'.SignsAll := by
  have hsound := h.sound.step hstep
  obtain ⟨pre, t, post, hin, -, rfl⟩ := step_answer hstep
  have ht : t ∈ n.inflight := by rw [hin]; simp
  have hknown : ∀ user, Known n.state.store user →
      Known (t.call.exec r n.state.store).1 user := fun user => h.sound.known_exec ht r
  refine ⟨hsound, ?_, ?_, ?_⟩
  · intro ref data hdata
    refine Signed.mono hknown ?_
    rcases answered_cases t r n.state.store with ⟨-, hstore⟩ | ⟨w, c, hreq, -, hstore⟩
    · rw [hstore] at hdata
      exact h.store ref data hdata
    · rw [hstore] at hdata
      exact Store.all_apply h.store (h.flight t ht w c hreq).1.keeps ref data hdata
  · intro t' ht'
    rcases mem_answered hin ht' with ht' | ⟨k, hk, rfl⟩
    · exact (h.flight t' ht').mono hknown
    · exact ((h.flight t ht).exec hk).mono hknown
  · intro past hpast user hpastKnown
    rcases answered_cases t r n.state.store with ⟨hlog, -⟩ | ⟨w, c, hreq, hlog, -⟩
    · rw [hlog, List.append_nil] at hpast
      exact hknown user (h.past past hpast user hpastKnown)
    · -- a past of the longer log is one of the old log, or the present
      rw [hlog] at hpast
      rcases List.prefix_concat_iff.mp hpast with rfl | hpast
      · rw [← hlog] at hpastKnown
        rw [hsound.replayed]
        exact hpastKnown
      · exact hknown user (h.past past hpast user hpastKnown)

/-- A user that was fetched is known. -/
theorem SignsAll.known (h : n.SignsAll) {user : User} (hfetched : n.fetched user = true) :
    Known n.state.store user := by
  obtain ⟨past, hpast, hfetch⟩ := List.any_eq_true.mp hfetched
  exact h.past past ((List.mem_inits ..).mp hpast) user ⟨_, eq_of_beq hfetch, rfl, rfl⟩

theorem SignsAll.step (h : n.SignsAll) {e : Event} (hfetches : n.fetches e = true)
    (hstep : n.step e = some n') : n'.SignsAll := by
  cases e with
  | act o =>
    have hsound := h.sound.step hstep
    obtain ⟨-, -, rfl⟩ := step_act hstep
    obtain ⟨hfetched, hown⟩ := Bool.and_eq_true_iff.mp hfetches
    refine ⟨hsound, h.store, fun t ht => ?_, h.past⟩
    rcases mem_start ht with ht | ⟨k, hk, rfl⟩
    · exact h.flight t ht
    · refine Operation.signs hk (fun user huser => h.known ?_) hown
      rw [huser] at hfetched
      exact hfetched
  | answer i r => exact h.answer hstep
  | fetchCartoon | fetchFeedBack =>
    have hsound := h.sound.step hstep
    cases hstep
    exact ⟨hsound, h.store, h.flight, h.past⟩

/-- At every moment of every run in which the screens hold users that were fetched at some
time: the author of a cartoon, a comment or a notification has a profile, and the name
that the document shows is the one that the profile has now. -/
theorem signatures_hold {es : List Event} (hrun : run App.step (opened ∅) es = some n)
    (hfetches : Along App.step (fun n e => n.fetches e = true) (opened ∅) es)
    {ref : DocRef} {data : Dictionary} (hdata : n.state.store.lookup ref = some data)
    {key : String} {name : User → String}
    (hkey : ref.collection.signature = some (key, name)) :
    ∃ uid profile, data "uid" = some (.string uid) ∧
      fetchUser n.state.store uid true = some profile ∧
      data key = some (.string (name profile)) := by
  have hstep : ∀ (n : App) e n', n.SignsAll → n.fetches e = true → n.step e = some n' →
      n'.SignsAll :=
    fun _ _ _ h he hstep => h.step he hstep
  have hall := run_inv_along hstep es .opened hfetches hrun
  obtain ⟨user, ⟨profile, hfetch, hnames⟩, huid, hname⟩ := hall.store ref data hdata key name hkey
  refine ⟨user.uid, profile, huid, hfetch, ?_⟩
  have hsame : name user = name profile := by
    cases hc : ref.collection <;> rw [hc] at hkey <;> cases hkey
    · exact hnames.1.symm
    · exact hnames.2.symm
    · exact hnames.2.symm
  rw [← hsame]
  exact hname

/-- The author registers, uploads a cartoon, changes the pictures of the profile and comments
on the cartoon, from a tab bar that still has the old profile. -/
def oldTab : List Event :=
  let r : AuthService.Registration :=
    ⟨"mail", "author", "pen", "", Vector.replicate 2 "face", "author"⟩
  let author := User.init r.data
  let upload : Upload := { post "c" with user := author }
  [.act (.userRegister r), success 0, .act (.action (.uploadCartoon (some "author") upload)),
   success 0, success 0, success 0, read "c",
   .act (.editUserData (some "author") author (Vector.replicate 2 "front") "hello"), success 0,
   .act (.loadComment (some "author") (some author)
     (Cartoon.init ⟨0, 0⟩ "c" (upload.data "author")) "" ⟨"id", ⟨0, 0⟩⟩), success 0]

theorem signatures_hold_oldTab : ∃ n data uid profile,
    run App.step (opened ∅) oldTab = some n ∧
    n.state.store.lookup ⟨.comments "c", "id"⟩ = some data ∧ data "uid" = some (.string uid) ∧
    fetchUser n.state.store uid true = some profile ∧
    data "userProfilePenname" = some (.string profile.penname) := by
  let n := (run App.step (opened ∅) oldTab).get (by decide)
  have hrun : run App.step (opened ∅) oldTab = some n := (Option.some_get _).symm
  have hdata : n.state.store.lookup ⟨.comments "c", "id"⟩ =
      some ((n.state.store.lookup ⟨.comments "c", "id"⟩).get (by decide)) :=
    (Option.some_get _).symm
  obtain ⟨uid, profile, hsigned⟩ := signatures_hold hrun (by decide) hdata rfl
  exact ⟨n, _, uid, profile, hrun, hdata, hsigned⟩

end App

end Toontagram
