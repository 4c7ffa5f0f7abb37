import Toontagram.Document.Kept
import Toontagram.Model.RoundTrip

/-!
# Who is notified, and nobody follows himself

A notification goes to the author of a cartoon or to the user who is followed,
and it must not come from this very account. The services see to it on one
screen each: `uploadFeedBack` stops when the inbox is the own one, the profile
screen does not follow the own profile. The notification screen follows whoever
a row names and asks nothing; that this is never the own account is a property
of the inbox, which rests on what the other screens put there.

So the parts are proved together. `Proper` says what a document may be,
`Call.Proper` what a call in flight may still lead to, and `App.Discreet` is the
invariant: all documents and calls are proper, and so is everything a screen has
read. It holds of every run in which each device stays with one account, whose
profile the tab bar has (`Operation.steady`).
-/

namespace Toontagram

open Lib (DocWrite Store run run_inv_of_forall)
open CartoonService (Upload)

/-! ## Documents -/

/-- The cartoon has the identifier, the author and the thumbnail of an upload. -/
def Uploaded (log : List Entry) (cartoon : Cartoon) : Prop :=
  ∃ u : Upload, (u, cartoon.uid) ∈ history log ⟨.cartoon, cartoon.cartoonId⟩ Operation.upload ∧
    u.data cartoon.uid "thumbnailImage" = some (.string cartoon.thumbnailImage)

/-- The notification `id` in the inbox of `r`: a fan's is without a cartoon, and
any other is about a cartoon of `r`. -/
inductive Addressed (log : List Entry) (r : Uid) (id : DocID) : Dictionary → Prop where
  | fan {user : User} {m : Moment} (hid : m.autoID = id) (huser : user.uid ≠ r) :
      Addressed log r id (FeedBackService.data .fan none user m)
  | cartoon {type : FeedBackType} {cartoon : Cartoon} {user : User} {m : Moment}
      (hid : m.autoID = id) (huser : user.uid ≠ r) (htype : type ≠ .fan)
      (hr : cartoon.uid = r) (hcartoon : Uploaded log cartoon) :
      Addressed log r id (FeedBackService.data type (some cartoon) user m)

/-- The sender of a notification that is read is not the reader. -/
theorem Addressed.uid_ne {log : List Entry} {me : Uid} {id : DocID} {data : Dictionary}
    (h : Addressed log me id data) (now : Timestamp) : (FeedBack.init now data).uid ≠ me := by
  cases h with
  | fan _ huser =>
    rw [FeedBack.init_data]
    exact huser
  | cartoon _ huser =>
    rw [FeedBack.init_data]
    exact huser

/-- What a document may be. -/
def Proper (log : List Entry) (ref : DocRef) (data : Dictionary) : Prop :=
  match ref.collection with
  | .userFeedback r => Addressed log r ref.documentID data
  | .userStar v => ref.documentID ≠ v
  | .userFan u => ref.documentID ≠ u
  | _ => True

section mono

variable {log log' : List Entry} (h : log <+: log')

include h

theorem Uploaded.mono {cartoon : Cartoon} (hc : Uploaded log cartoon) : Uploaded log' cartoon := by
  obtain ⟨u, hu, hthumb⟩ := hc
  exact ⟨u, (h.filterMap _).subset hu, hthumb⟩

theorem Addressed.mono {r : Uid} {id : DocID} {data : Dictionary}
    (ha : Addressed log r id data) : Addressed log' r id data := by
  cases ha with
  | fan hid huser => exact .fan hid huser
  | cartoon hid huser htype hr hcartoon =>
    exact .cartoon hid huser htype hr (hcartoon.mono h)

theorem Proper.mono {ref : DocRef} {data : Dictionary} (hp : Proper log ref data) :
    Proper log' ref data := by
  obtain ⟨collection, id⟩ := ref
  cases collection with
  | userFeedback r => exact Addressed.mono h hp
  | userStar v | userFan u => exact hp
  | user | cartoon | userFeed | userLikes | cartoonLikes | comments => trivial

end mono

/-! ## Calls -/

/-- Only users and cartoons are updated; what is set is proper. -/
def Write.Proper (log : List Entry) : Write → Prop
  | .setData ref data => Toontagram.Proper log ref data
  | .updateData ref _ => ref.collection.top = true
  | .delete _ => True

theorem Write.Proper.keeps {log : List Entry} {w : Write} (h : Write.Proper log w) :
    w.Keeps (Toontagram.Proper log) := by
  cases w with
  | setData ref data => exact h
  | updateData ref fields =>
    obtain ⟨collection, id⟩ := ref
    intro data hdata
    cases collection with
    | user | cartoon => trivial
    | userFan | userStar | userFeed | userLikes | cartoonLikes | userFeedback | comments => cases h
  | delete ref => trivial

/-- A completion that sends feedback runs on the device of the sender, and the
cartoon it is about has been uploaded. -/
def ScreenCompletion.Proper (log : List Entry) (auth : Option Uid) : ScreenCompletion → Prop
  | .ignore => True
  | .antiFanned _ _ => True
  | .fanned _ _ currentUser => auth = some currentUser.uid
  | .liked cartoon user => auth = some user.uid ∧ Uploaded log cartoon
  | .commented cartoon user => auth = some user.uid ∧ Uploaded log cartoon

def Completion.Proper (log : List Entry) (auth : Option Uid) : Completion → Prop
  | .screen c => c.Proper log auth
  | .fanUsers uid currentUid c => currentUid ≠ uid ∧ c.Proper log auth
  | .antiFanUser _ _ c => c.Proper log auth
  | .likeCartoon _ _ c => c.Proper log auth
  | .unLikeCartoon _ _ c => c.Proper log auth

/-- What a call writes is proper, and so is what its closure leads to. -/
def Call.Proper (log : List Entry) (k : Call) : Prop :=
  ∀ w c, k.request = .write w c → Write.Proper log w ∧ c.Proper log k.auth

section calls

variable {log log' : List Entry}

theorem ScreenCompletion.Proper.mono (h : log <+: log') {auth : Option Uid} {c : ScreenCompletion}
    (hc : c.Proper log auth) : c.Proper log' auth := by
  cases c with
  | ignore | antiFanned | fanned => exact hc
  | liked | commented => exact ⟨hc.1, hc.2.mono h⟩

theorem Completion.Proper.mono (h : log <+: log') {auth : Option Uid} {c : Completion}
    (hc : c.Proper log auth) : c.Proper log' auth := by
  cases c with
  | screen | antiFanUser | likeCartoon | unLikeCartoon => exact ScreenCompletion.Proper.mono h hc
  | fanUsers => exact ⟨hc.1, ScreenCompletion.Proper.mono h hc.2⟩

theorem Write.Proper.mono (h : log <+: log') {w : Write} (hw : Write.Proper log w) :
    Write.Proper log' w := by
  cases w with
  | setData ref data => exact Toontagram.Proper.mono h hw
  | updateData | delete => exact hw

theorem Call.Proper.mono (h : log <+: log') {k : Call} (hk : k.Proper log) : k.Proper log' := by
  intro w c hreq
  obtain ⟨hw, hc⟩ := hk w c hreq
  exact ⟨Write.Proper.mono h hw, hc.mono h⟩

/-- Feedback of the signed-in account goes to somebody else. -/
theorem proper_uploadFeedBack {auth : Option Uid} {toUid : Uid} {type : FeedBackType}
    {cartoon : Option Cartoon} {user : User} {m : Moment} (hauth : auth = some user.uid)
    (haddressed : user.uid ≠ toUid →
      Addressed log toUid m.autoID (FeedBackService.data type cartoon user m)) :
    ∀ k ∈ FeedBackService.uploadFeedBack auth toUid type cartoon user m, k.Proper log := by
  intro k hk
  obtain ⟨me, hme, hself, rfl⟩ := FeedBackService.mem_uploadFeedBack hk
  obtain rfl : me = user.uid := Option.some.inj (hme.symm.trans hauth)
  intro w c hreq
  cases hreq
  exact ⟨haddressed hself.symm, trivial⟩

theorem ScreenCompletion.Proper.run {auth : Option Uid} {m : Moment} {c : ScreenCompletion}
    (hc : c.Proper log auth) : ∀ k ∈ (c.run auth m).calls, k.Proper log := by
  intro k hk
  have hquery : ∀ {user didFan}, k ∈ CartoonService.updateMainUserAfterFan auth user didFan →
      k.Proper log := by
    intro user didFan hk w c hreq
    obtain ⟨uid, rfl⟩ := CartoonService.mem_updateMainUserAfterFan hk
    cases hreq
  cases c with
  | ignore => cases hk
  | antiFanned vc user => exact hquery hk
  | fanned vc user currentUser =>
    rcases List.mem_append.mp hk with hk | hk
    · exact proper_uploadFeedBack hc (fun hne => .fan rfl hne) k hk
    · exact hquery hk
  | liked cartoon user | commented cartoon user =>
    simp only [ScreenCompletion.run] at hk
    exact proper_uploadFeedBack hc.1 (fun hne => .cartoon rfl hne (by decide) rfl hc.2) k hk

theorem Completion.Proper.run {auth : Option Uid} {m : Moment} {c : Completion}
    (hc : c.Proper log auth) : ∀ k ∈ (c.run auth m).calls, k.Proper log := by
  intro k hk
  cases c with
  | screen c => exact ScreenCompletion.Proper.run hc k hk
  | fanUsers uid currentUid c =>
    rw [List.mem_singleton.mp hk]
    intro w' c' hreq
    cases hreq
    exact ⟨hc.1, hc.2⟩
  | antiFanUser | likeCartoon | unLikeCartoon =>
    rw [List.mem_singleton.mp hk]
    intro w' c' hreq
    cases hreq
    exact ⟨trivial, hc⟩

/-- What follows a proper call is proper. -/
theorem Call.Proper.exec {k : Call} (hk : k.Proper log) {r : Reply} {s : Firestore} :
    ∀ k' ∈ (k.exec r s).2.calls, k'.Proper log := by
  intro k' hk'
  by_cases hread : ∀ w c, k.request ≠ .write w c
  · obtain ⟨b, v, x, rfl⟩ := Call.mem_exec_read hread hk'
    intro w c hreq
    cases hreq
    cases b <;> exact ⟨trivial, trivial⟩
  · push Not at hread
    obtain ⟨w, c, hreq⟩ := hread
    simp only [Call.exec, hreq] at hk'
    exact (hk w c hreq).2.run k' hk'

end calls

/-! ## Operations -/

/-- The user of the tab bar, if it has one, is the account of the device. -/
def ownTab (auth : Option Uid) (tabUser : Option User) : Bool :=
  tabUser.all fun user => auth == some user.uid

/-- The device stays with one account, whose profile the tab bar has; no cartoon
is deleted. -/
def Operation.steady : Operation → Bool
  | .action (.didTapButton auth tabUser _ _) => ownTab auth tabUser
  | .action (.likeCartoon auth _ user) => ownTab auth (some user)
  | .loadComment auth tabUser _ _ _ => ownTab auth tabUser
  | .deleteCartoon _ _ => false
  | _ => true

theorem ownTab_some {auth : Option Uid} {user : User} (h : ownTab auth (some user) = true) :
    auth = some user.uid :=
  eq_of_beq h

namespace App

/-- Everything the screens have read is proper: a cartoon is one that was
uploaded, and no row of a notification screen names its own account. -/
structure Reads (n : App) : Prop where
  cartoons : ∀ cartoon ∈ n.state.cartoons, Uploaded n.state.log cartoon
  rows : ∀ row ∈ n.state.feedbacks, row.2.uid ≠ row.1

variable {n n' : App}

theorem Reads.of_showsCartoon (h : n.Reads) {cartoon : Cartoon}
    (hshows : n.showsCartoon cartoon = true) : Uploaded n.state.log cartoon :=
  h.cartoons { cartoon with didLike := false } (List.contains_iff_mem.mp hshows)

theorem Reads.of_showsRow (h : n.Reads) {me uid : Uid} (hshows : n.showsRow (some me) uid = true) :
    uid ≠ me := by
  obtain ⟨row, hrow, hme⟩ := List.any_eq_true.mp hshows
  simp only [Bool.and_eq_true, beq_iff_eq, Option.some.injEq] at hme
  obtain ⟨⟨rfl, -⟩, rfl⟩ := hme
  exact h.rows row hrow

/-- What an operation issues is proper. -/
theorem Reads.calls (h : n.Reads) {o : Operation} (hsteady : o.steady = true)
    (hshows : n.shows o = true) : ∀ k ∈ o.calls, k.Proper n.state.log := by
  intro k hk w c hreq
  cases Operation.issues hk with
  | follow hne =>
    cases hreq
    exact ⟨hne.symm, hne, ownTab_some hsteady⟩
  | fan =>
    cases hreq
    -- no guard here: the row comes from an inbox that is proper
    have hne := h.of_showsRow hshows
    exact ⟨hne, hne.symm, trivial⟩
  | likeMark =>
    cases hreq
    exact ⟨trivial, ownTab_some hsteady, h.of_showsCartoon hshows⟩
  | comment =>
    cases hreq
    exact ⟨trivial, ownTab_some hsteady, h.of_showsCartoon hshows⟩
  | likeNumber | unLikeNumber | edit | editUserData =>
    cases hreq
    exact ⟨rfl, trivial⟩
  | unfollow | unFan | unLikeMark | post | userRegister =>
    cases hreq
    exact ⟨trivial, trivial⟩
  | fans | edited => cases hreq
  | deleteCartoon => cases hsteady

/-! ## The invariant -/

/-- Every operation that is started is steady. -/
def Steady : Event → Bool
  | .act o => o.steady
  | _ => true

/-- What holds of every state that steady clients reach. -/
structure Discreet (n : App) : Prop where
  sound : n.Sound
  reads : n.Reads
  steady : ∀ t ∈ n.inflight, t.origin.steady = true
  flight : ∀ t ∈ n.inflight, t.call.Proper n.state.log
  stored : ∀ ref data, n.state.store.lookup ref = some data → Proper n.state.log ref data
  /-- A cartoon that was uploaded is there. -/
  kept : ∀ x p, p ∈ history n.state.log ⟨.cartoon, x⟩ Operation.upload →
    n.state.store.has ⟨.cartoon, x⟩ = true

theorem Discreet.opened : (opened ∅).Discreet where
  sound := .opened
  reads := ⟨fun _ h => (nomatch h), fun _ h => (nomatch h)⟩
  steady := fun _ h => nomatch h
  flight := fun _ h => nomatch h
  stored := fun _ _ h => nomatch h
  kept := fun _ _ h => nomatch h

theorem Discreet.act (h : n.Discreet) {o : Operation} (hsteady : o.steady = true)
    (hshows : n.shows o = true) (hfresh : n.fresh o = true) : (n.start o).Discreet where
  sound := h.sound.act hfresh
  reads := ⟨h.reads.cartoons, h.reads.rows⟩
  steady := by
    intro t ht
    rcases mem_start ht with ht | ⟨k, -, rfl⟩
    · exact h.steady t ht
    · exact hsteady
  flight := by
    intro t ht
    rcases mem_start ht with ht | ⟨k, hk, rfl⟩
    · exact h.flight t ht
    · exact h.reads.calls hsteady hshows k hk
  stored := h.stored
  kept := h.kept

/-- A write of a steady operation takes no cartoon away, and an upload adds one. -/
theorem has_logged {o : Operation} {w : Write} {s : Firestore} {x : DocID}
    (htop : w.ref.collection.top = true → TopWrite o w) (hsteady : o.steady = true)
    (hx : s.has ⟨.cartoon, x⟩ = true ∨
      ∃ p, Entry.about ⟨.cartoon, x⟩ Operation.upload ⟨o, w⟩ = some p) :
    Store.has (w.apply s) ⟨.cartoon, x⟩ = true := by
  by_cases href : w.ref = ⟨.cartoon, x⟩
  · rw [Store.has_apply, DocWrite.leavesAt, if_pos href]
    cases htop (by rw [href]; rfl) with
    | upload => rfl
    | like | unLike | edit =>
      -- a field is changed of a cartoon that is there
      rcases hx with hx | ⟨p, hp⟩
      · exact hx
      · simp [Entry.about, Operation.upload] at hp
    | deleteCartoon => cases hsteady
    | editUserData | userRegister => cases href
  · rw [Store.has_apply_ne href]
    rcases hx with hx | ⟨p, hp⟩
    · exact hx
    · rw [Entry.about, if_neg href] at hp
      cases hp

theorem Discreet.answer (h : n.Discreet) {i : Nat} {r : Reply}
    (hstep : n.step (.answer i r) = some n') : n'.Discreet := by
  have hsound : n'.Sound := h.sound.answer hstep
  obtain ⟨pre, t, post, hin, -, rfl⟩ := step_answer hstep
  have ht : t ∈ n.inflight := by rw [hin]; simp
  have hgrows : n.state.log <+: n.state.log ++ t.logged r := List.prefix_append _ _
  refine ⟨hsound, ⟨?_, h.reads.rows⟩, ?_, ?_, ?_, ?_⟩
  · exact fun cartoon hc => (h.reads.cartoons cartoon hc).mono hgrows
  · intro t' ht'
    rcases mem_answered hin ht' with ht' | ⟨k, -, rfl⟩
    · exact h.steady t' ht'
    · exact h.steady t ht
  · intro t' ht'
    rcases mem_answered hin ht' with ht' | ⟨k, hk, rfl⟩
    · exact (h.flight t' ht').mono hgrows
    · exact ((h.flight t ht).exec k hk).mono hgrows
  · have hstored := fun ref data hdata => (h.stored ref data hdata).mono hgrows
    rcases answered_cases t r n.state.store with ⟨-, hstore⟩ | ⟨w, c, hreq, -, hstore⟩
    · simp only [hstore]
      exact hstored
    · simp only [hstore]
      have hw : Write.Proper n.state.log w := (h.flight t ht w c hreq).1
      exact Store.all_apply hstored (hw.mono hgrows).keeps
  · intro x p hp
    simp only [history, List.filterMap_append, List.mem_append] at hp
    rcases answered_cases t r n.state.store with ⟨hlog, hstore⟩ | ⟨w, c, hreq, hlog, hstore⟩
    · simp only [hstore]
      simp only [hlog, List.filterMap_nil, List.not_mem_nil, or_false] at hp
      exact h.kept x p hp
    · simp only [hstore]
      simp only [hlog] at hp
      -- the accepted write takes no cartoon away, and what it uploads is there
      refine has_logged (h.sound.flight t ht w c hreq) (h.steady t ht) ?_
      rcases hp with hp | hp
      · exact Or.inl (h.kept x p hp)
      · obtain ⟨e, he, hp⟩ := List.mem_filterMap.mp hp
        exact Or.inr ⟨p, List.mem_singleton.mp he ▸ hp⟩

/-- The author and the thumbnail of a stored cartoon, by its creation. -/
theorem creation_eq {u : Upload} {a : Uid} {data : Dictionary}
    (h : data.part Cartoon.creation = (u.data a).part Cartoon.creation) :
    data "uid" = some (.string a) ∧ data "thumbnailImage" = u.data a "thumbnailImage" := by
  simp only [Lib.Fields.part, Cartoon.creation, List.map_cons, List.cons.injEq] at h
  exact ⟨h.1, h.2.2.2.2.1⟩

/-- A cartoon that a screen reads has been uploaded. -/
theorem Sound.uploaded_of_read (h : n.Sound) {x : DocID} {r : Reply} {cartoon : Cartoon}
    (hread : CartoonService.fetchCartoon n.state.store x r = some cartoon) :
    Uploaded n.state.log cartoon := by
  unfold CartoonService.fetchCartoon at hread
  split at hread
  next =>
    obtain ⟨data, hdata, rfl⟩ := Option.map_eq_some_iff.mp hread
    obtain ⟨u, a, hhist, hpart⟩ := (h.cartoonFrom hdata).creation
    obtain ⟨huid, hthumb⟩ := creation_eq hpart
    have huid' : (Cartoon.init r.moment.now x data).uid = a := by
      simp [Cartoon.init, Dictionary.string?, huid]
    refine ⟨u, ?_, ?_⟩
    · rw [huid']
      exact hhist ▸ List.mem_singleton.mpr rfl
    · obtain ⟨url, hurl⟩ : ∃ url, u.data a "thumbnailImage" = some (.string url) := ⟨_, rfl⟩
      rw [hurl] at hthumb
      rw [huid', hurl]
      simp [Cartoon.init, Dictionary.string?, hthumb]
  next => cases hread

theorem Discreet.fetchCartoon (h : n.Discreet) (x : DocID) (r : Reply) :
    (n.fetchCartoon x r).Discreet := by
  refine ⟨⟨h.sound.replayed, h.sound.flight, h.sound.log, h.sound.once⟩, ⟨?_, h.reads.rows⟩,
    h.steady, h.flight, h.stored, h.kept⟩
  intro cartoon hcartoon
  rcases List.mem_append.mp hcartoon with hold | hnew
  · exact h.reads.cartoons cartoon hold
  · exact h.sound.uploaded_of_read (Option.mem_toList.mp hnew)

theorem Discreet.fetchFeedBack (h : n.Discreet) (me : Uid) (now : Timestamp) :
    (n.fetchFeedBack me now).Discreet := by
  refine ⟨⟨h.sound.replayed, h.sound.flight, h.sound.log, h.sound.once⟩,
    ⟨h.reads.cartoons, ?_⟩, h.steady, h.flight, h.stored, h.kept⟩
  intro row hrow
  rcases List.mem_append.mp hrow with hold | hnew
  · exact h.reads.rows row hold
  · obtain ⟨⟨id, data⟩, hdoc, rfl⟩ := List.mem_map.mp hnew
    have haddressed : Addressed n.state.log me id data :=
      h.stored _ data (Store.mem_documents.mp hdoc)
    exact haddressed.uid_ne now

theorem Discreet.step (h : n.Discreet) {e : Event} (hsteady : Steady e = true)
    (hstep : n.step e = some n') : n'.Discreet := by
  cases e with
  | act o =>
    obtain ⟨hshows, hfresh, rfl⟩ := step_act hstep
    exact h.act hsteady hshows hfresh
  | answer i r => exact h.answer hstep
  | fetchCartoon x r =>
    cases hstep
    exact h.fetchCartoon x r
  | fetchFeedBack me now =>
    cases hstep
    exact h.fetchFeedBack me now

end App

/-! ## The result -/

/-- The document `id` in the inbox of `r`, by its fields. -/
structure Notification (s : Firestore) (r : Uid) (id : DocID) (data : Dictionary) : Prop where
  sender : data "uid" ≠ some (.string r)
  id : data "id" = some (.string id)
  type : ∃ type : FeedBackType, data "type" = some (.int type.rawValue)
  fan : data "type" = some (.int FeedBackType.fan.rawValue) →
    data "cartoonID" = none ∧ data "thumbnailImage" = none
  cartoon : ∀ type : FeedBackType, type ≠ .fan → data "type" = some (.int type.rawValue) →
    ∃ x cartoon, s.lookup ⟨.cartoon, x⟩ = some cartoon ∧ cartoon "uid" = some (.string r) ∧
      data "cartoonID" = some (.string x) ∧ data "thumbnailImage" = cartoon "thumbnailImage"

/-- A cartoon that was uploaded is stored with its author and its thumbnail. -/
theorem App.Discreet.stored_of_uploaded {n : App} (h : n.Discreet) {cartoon : Cartoon}
    (hcartoon : Uploaded n.state.log cartoon) : ∃ data,
      n.state.store.lookup ⟨.cartoon, cartoon.cartoonId⟩ = some data ∧
      data "uid" = some (.string cartoon.uid) ∧
      data "thumbnailImage" = some (.string cartoon.thumbnailImage) := by
  obtain ⟨u, hu, hthumb⟩ := hcartoon
  obtain ⟨data, hdata⟩ := Option.isSome_iff_exists.mp (h.kept _ _ hu)
  obtain ⟨u', a', hhist, hpart⟩ := (h.sound.cartoonFrom hdata).creation
  rw [hhist, List.mem_singleton] at hu
  cases hu
  obtain ⟨huid, hthumb'⟩ := App.creation_eq hpart
  exact ⟨data, hdata, huid, hthumb'.trans hthumb⟩

theorem App.Discreet.notification {n : App} (h : n.Discreet) {r : Uid} {id : DocID}
    {data : Dictionary} (haddressed : Addressed n.state.log r id data) :
    Notification n.state.store r id data := by
  cases haddressed with
  | fan hid huser =>
    subst hid
    refine ⟨fun hself => huser ?_, rfl, ⟨.fan, rfl⟩, fun _ => ⟨rfl, rfl⟩, ?_⟩
    · exact Value.string.inj (Option.some.inj hself)
    · intro type htype hkind
      cases type with
      | fan => exact absurd rfl htype
      | like | comment => cases hkind
  | @cartoon type cartoon user m hid huser htype hr hcartoon =>
    subst hid hr
    refine ⟨fun hself => huser ?_, rfl, ⟨type, rfl⟩, fun hkind => ?_, ?_⟩
    · exact Value.string.inj (Option.some.inj hself)
    · cases type with
      | fan => exact absurd rfl htype
      | like | comment => cases hkind
    · intro _ _ _
      obtain ⟨data, hdata, huid, hthumb⟩ := h.stored_of_uploaded hcartoon
      exact ⟨cartoon.cartoonId, data, hdata, huid, rfl, hthumb.symm⟩

/-- For every run of any number of clients, in any order, in which every device
stays with one account whose profile the tab bar has and no cartoon is deleted:
nobody is notified of what he did himself, every like and every comment names a
stored cartoon of the one who is notified, and nobody is among his own stars or
fans. -/
theorem notified_of_others {es : List App.Event} {n : App}
    (hrun : run App.step (App.opened ∅) es = some n) (hsteady : ∀ e ∈ es, App.Steady e = true) :
    (∀ r id data, n.state.store.lookup ⟨.userFeedback r, id⟩ = some data →
      Notification n.state.store r id data) ∧
    ∀ u, n.state.store.has ⟨.userStar u, u⟩ = false ∧
      n.state.store.has ⟨.userFan u, u⟩ = false := by
  have hdiscreet : n.Discreet :=
    run_inv_of_forall (fun _ _ _ h hok hstep => h.step hok hstep) hsteady .opened hrun
  refine ⟨fun r id data hdata => hdiscreet.notification (hdiscreet.stored _ data hdata),
    fun u => ⟨?_, ?_⟩⟩
  · rw [← Bool.not_eq_true, Store.has, Option.isSome_iff_exists]
    intro hself
    obtain ⟨data, hdata⟩ := hself
    exact hdiscreet.stored _ data hdata rfl
  · rw [← Bool.not_eq_true, Store.has, Option.isSome_iff_exists]
    intro hself
    obtain ⟨data, hdata⟩ := hself
    exact hdiscreet.stored _ data hdata rfl

namespace App

/-- An account whose profile document has no other fields. -/
def account (uid : Uid) : User := User.init (.ofList [("uid", .string uid)])

/-- The reader likes the author's cartoon and follows him, and he follows back
from his notifications. -/
def visits : List Event :=
  [uploadByAuthor "c", success 0, success 0, success 0, read "c",
    .act (.action (.likeCartoon (some "reader") (posted "c") (account "reader"))),
    success 0, success 0, success 0, success 0,
    .act (.action (.didTapButton (some "reader") (some (account "reader")) 0 (account "author"))),
    success 0, .answer 0 ⟨true, ⟨"fan", ⟨1, 0⟩⟩⟩, success 0, success 0, success 0,
    .fetchFeedBack "author" ⟨2, 0⟩, .act (.fan (some "author") "reader"), success 0, success 0]

def afterVisits : App := (run step (opened ∅) visits).get (by decide)

end App

theorem notified_of_others_visits : ∃ data,
    App.afterVisits.state.store.lookup ⟨.userFeedback "author", "id"⟩ = some data ∧
    Notification App.afterVisits.state.store "author" "id" data ∧
    App.afterVisits.state.store.has ⟨.userFeedback "author", "fan"⟩ = true ∧
    App.afterVisits.state.store.has ⟨.userStar "author", "reader"⟩ = true ∧
    App.afterVisits.state.store.has ⟨.userStar "author", "author"⟩ = false := by
  have hothers := @notified_of_others App.visits App.afterVisits (Option.some_get _).symm
    (by decide)
  have hdata : App.afterVisits.state.store.lookup ⟨.userFeedback "author", "id"⟩ =
      some ((App.afterVisits.state.store.lookup ⟨.userFeedback "author", "id"⟩).get (by decide)) :=
    (Option.some_get _).symm
  exact ⟨_, hdata, hothers.1 _ _ _ hdata, by decide, by decide, (hothers.2 "author").1⟩

end Toontagram
