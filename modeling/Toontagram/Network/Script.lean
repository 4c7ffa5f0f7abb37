import Toontagram.Document.Notices
import Toontagram.Lib.Script
import Toontagram.Lib.Settle

/-!
# What an operation writes in all

An operation issues calls, the closures of these further ones, and only when the last
is answered has it done what it is for. `Operation.script` is the list of the writes
that it comes to, notifications apart, read off the store it starts on.

The calls are answered in any order, and a query of a closure is answered after some of
the writes. None of this matters when all answers are good: the writes do not
conflict, no query is about what they change, and the documents end as the script
leaves them (`Operation.settled`).
-/

namespace Toontagram

open Lib (Compatible DocWrite Flight Settling Store)

/-! ## Scripts -/

/-- The writes of the two loops over the documents of a query. -/
def QueryCallback.script (documents : List (DocID × Dictionary)) : QueryCallback → List Write
  | .updateMainUserAfterFan uid didFan =>
    documents.map fun doc => .mark didFan ⟨.userFeed uid, doc.1⟩
  | .updateMainUserAfterCartoon uid cartoonID =>
    (documents.map fun doc => .mark true ⟨.userFeed doc.1, cartoonID⟩) ++
      [.mark true ⟨.userFeed uid, cartoonID⟩]

/-- The query for the cartoons of an author. -/
def cartoonsOf (author : Uid) : Query := ⟨.cartoon, some ("uid", .string author)⟩

/-- What `updateMainUserAfterFan` writes. -/
def CartoonService.updatedFeed (s : Firestore) (auth : Option Uid) (author : Uid)
    (didFan : Bool) : List Write :=
  match auth with
  | none => []
  | some uid =>
    (QueryCallback.updateMainUserAfterFan uid didFan).script ((cartoonsOf author).documents s)

/-- What the completion of a screen leads to, notifications apart. -/
def ScreenCompletion.script (s : Firestore) (auth : Option Uid) : ScreenCompletion → List Write
  | .ignore => []
  | .antiFanned _ user => CartoonService.updatedFeed s auth user.uid false
  | .fanned _ user _ => CartoonService.updatedFeed s auth user.uid true
  | .liked _ _ => []
  | .commented _ _ => []

def Completion.script (s : Firestore) (auth : Option Uid) : Completion → List Write
  | .screen c => c.script s auth
  | .fanUsers uid currentUid c => .mark true ⟨.userFan uid, currentUid⟩ :: c.script s auth
  | .antiFanUser uid currentUid c => .mark false ⟨.userFan uid, currentUid⟩ :: c.script s auth
  | .likeCartoon uid cartoonId c => .mark true ⟨.userLikes uid, cartoonId⟩ :: c.script s auth
  | .unLikeCartoon uid cartoonId c => .mark false ⟨.userLikes uid, cartoonId⟩ :: c.script s auth

/-- A write, unless it is a notification. -/
def Write.beside (w : Write) : List Write := if isFeedback w.ref then [] else [w]

/-- The writes of a call and of its closures. -/
def Call.script (s : Firestore) (k : Call) : List Write :=
  match k.request with
  | .write w c => Write.beside w ++ c.script s k.auth
  | .getDocuments q callback => callback.script (q.documents s)
  | .getDocument _ _ => []

/-- The writes of an operation that is started on the store. -/
def Operation.script (s : Firestore) (o : Operation) : List Write := o.calls.flatMap (Call.script s)

/-! ## Queries -/

/-- The names of the documents that a query finds. -/
def Query.ids (q : Query) (s : Firestore) : Set DocID := {x | ∃ data, (x, data) ∈ q.documents s}

/-- The query of a screen's completion. -/
def ScreenCompletion.reads : ScreenCompletion → List Query
  | .antiFanned _ user => [cartoonsOf user.uid]
  | .fanned _ user _ => [cartoonsOf user.uid]
  | _ => []

def Completion.reads : Completion → List Query
  | .screen c => c.reads
  | .fanUsers _ _ c => c.reads
  | .antiFanUser _ _ c => c.reads
  | .likeCartoon _ _ c => c.reads
  | .unLikeCartoon _ _ c => c.reads

/-- The queries of a call and of its closures. -/
def Call.reads (k : Call) : List Query :=
  match k.request with
  | .write _ c => c.reads
  | .getDocuments q _ => [q]
  | .getDocument _ _ => []

/-- Whether a query finds a document is read off this document. -/
theorem Query.mem_ids_congr {q : Query} {s s' : Firestore} {x : DocID}
    (h : s'.lookup ⟨q.collection, x⟩ = s.lookup ⟨q.collection, x⟩) :
    x ∈ q.ids s' ↔ x ∈ q.ids s := by
  have hdoc : ∀ data, (x, data) ∈ q.documents s' ↔ (x, data) ∈ q.documents s := by
    intro data
    unfold Query.documents
    cases q.whereField with
    | none => rw [Store.mem_documents, Store.mem_documents, h]
    | some f => rw [List.mem_filter, List.mem_filter, Store.mem_documents, Store.mem_documents, h]
  exact exists_congr hdoc

theorem Query.ids_eq {q : Query} {s s' : Firestore}
    (h : (q.documents s').map Prod.fst = (q.documents s).map Prod.fst) : q.ids s' = q.ids s := by
  have hids : ∀ t : Firestore, q.ids t = {x | x ∈ (q.documents t).map Prod.fst} := by
    intro t
    ext x
    simp [Query.ids]
  rw [hids, hids, h]

/-- A write for each document that a query finds. -/
theorem Query.mem_map_documents {q : Query} {s : Firestore} {f : DocID → Write} {w : Write} :
    (w ∈ (q.documents s).map fun doc => f doc.1) ↔ ∃ x ∈ q.ids s, f x = w := by
  rw [List.mem_map]
  constructor
  · rintro ⟨⟨x, data⟩, hdoc, rfl⟩
    exact ⟨x, ⟨data, hdoc⟩, rfl⟩
  · rintro ⟨x, ⟨data, hdoc⟩, rfl⟩
    exact ⟨(x, data), hdoc, rfl⟩

section congr

variable {s s' : Firestore} {w : Write}

theorem QueryCallback.mem_script_congr {c : QueryCallback} {q : Query} (h : q.ids s' = q.ids s) :
    w ∈ c.script (q.documents s') ↔ w ∈ c.script (q.documents s) := by
  cases c with
  | updateMainUserAfterFan uid didFan =>
    simp only [script, Query.mem_map_documents (f := fun x => .mark didFan ⟨.userFeed uid, x⟩), h]
  | updateMainUserAfterCartoon uid x =>
    simp only [script, List.mem_append,
      Query.mem_map_documents (f := fun v => .mark true ⟨.userFeed v, x⟩), h]

theorem ScreenCompletion.mem_script_congr {c : ScreenCompletion} {auth : Option Uid}
    (h : ∀ q ∈ c.reads, q.ids s' = q.ids s) : w ∈ c.script s' auth ↔ w ∈ c.script s auth := by
  have hloop : ∀ {author : Uid} {didFan : Bool},
      (cartoonsOf author).ids s' = (cartoonsOf author).ids s →
      (w ∈ CartoonService.updatedFeed s' auth author didFan ↔
        w ∈ CartoonService.updatedFeed s auth author didFan) := by
    intro author didFan hids
    cases auth with
    | none => exact Iff.rfl
    | some uid =>
      exact QueryCallback.mem_script_congr (c := .updateMainUserAfterFan uid didFan) hids
  cases c with
  | antiFanned | fanned => exact hloop (h _ (List.mem_singleton_self _))
  | ignore | liked | commented => exact Iff.rfl

/-- The script of a call depends on what its queries find. -/
theorem Call.mem_script_congr {k : Call} (h : ∀ q ∈ k.reads, q.ids s' = q.ids s) :
    w ∈ k.script s' ↔ w ∈ k.script s := by
  obtain ⟨auth, request⟩ := k
  cases request with
  | getDocuments q callback =>
    exact QueryCallback.mem_script_congr (h q (List.mem_singleton_self q))
  | getDocument => exact Iff.rfl
  | write w' c =>
    simp only [script, List.mem_append]
    refine or_congr_right ?_
    cases c with
    | screen c => exact ScreenCompletion.mem_script_congr h
    | fanUsers uid currentUid c | antiFanUser uid currentUid c
    | likeCartoon uid cartoonId c | unLikeCartoon uid cartoonId c =>
      simp only [Completion.script, List.mem_cons]
      exact or_congr_right (ScreenCompletion.mem_script_congr h)

end congr

theorem mem_beside {w w' : Write} : w' ∈ Write.beside w ↔ w' = w ∧ isFeedback w.ref = false := by
  rw [Write.beside]
  cases isFeedback w.ref <;> simp

theorem beside_feedBack (auth : Option Uid) (toUid : Uid) (type : FeedBackType)
    (cartoon : Option Cartoon) (user : User) (m : Moment) (s : Firestore) :
    (FeedBackService.uploadFeedBack auth toUid type cartoon user m).flatMap (Call.script s) =
      [] := by
  refine List.flatMap_eq_nil_iff.mpr fun k hk => ?_
  obtain ⟨-, -, -, rfl⟩ := FeedBackService.mem_uploadFeedBack hk
  rfl

/-! ## One answer -/

theorem CartoonService.script_updateMainUserAfterFan (auth : Option Uid) (user : User)
    (didFan : Bool) (s : Firestore) :
    (updateMainUserAfterFan auth user didFan).flatMap (Call.script s) =
      updatedFeed s auth user.uid didFan := by
  cases auth with
  | none => rfl
  | some uid => exact List.append_nil _

/-- The script of a completion is that of the calls it issues. -/
theorem ScreenCompletion.script_run (c : ScreenCompletion) (auth : Option Uid) (m : Moment)
    (s : Firestore) : (c.run auth m).calls.flatMap (Call.script s) = c.script s auth := by
  cases c with
  | ignore => rfl
  | antiFanned vc user => exact CartoonService.script_updateMainUserAfterFan auth user false s
  | fanned vc user currentUser =>
    simp only [run, script, List.flatMap_append, beside_feedBack, List.nil_append]
    exact CartoonService.script_updateMainUserAfterFan auth user true s
  | liked cartoon user | commented cartoon user =>
    simp only [run, script]
    exact beside_feedBack ..

theorem Completion.script_run (c : Completion) (auth : Option Uid) (m : Moment) (s : Firestore) :
    (c.run auth m).calls.flatMap (Call.script s) = c.script s auth := by
  cases c with
  | screen c => exact c.script_run auth m s
  | fanUsers uid currentUid c | antiFanUser uid currentUid c
  | likeCartoon uid cartoonId c | unLikeCartoon uid cartoonId c => exact List.append_nil _

/-- Each call of a loop is one write. -/
theorem QueryCallback.script_run (c : QueryCallback) (auth : Option Uid)
    (documents : List (DocID × Dictionary)) (s : Firestore) :
    (c.run auth documents).calls.flatMap (Call.script s) = c.script documents := by
  cases c with
  | updateMainUserAfterFan uid didFan =>
    simp only [run, script, List.flatMap_map]
    rw [← List.flatMap_pure_eq_map]
    congr 1
    funext doc
    cases didFan <;> rfl
  | updateMainUserAfterCartoon uid cartoonID =>
    simp only [run, script, List.flatMap_append, List.flatMap_map]
    rw [← List.flatMap_pure_eq_map]
    rfl

/-- What the call itself writes, unless it is a notification. -/
def Call.own (k : Call) : List Write :=
  match k.request with
  | .write w _ => Write.beside w
  | _ => []

/-- The script of a call is its own write and the scripts of what its closure issues. -/
theorem Call.mem_script_exec {k : Call} {r : Reply} {s₀ s : Firestore} {w : Write}
    (hr : r.ok = true) (hreads : ∀ q ∈ k.reads, q.ids s = q.ids s₀) :
    w ∈ k.script s₀ ↔ w ∈ k.own ∨ ∃ k' ∈ (k.exec r s).2.calls, w ∈ k'.script s₀ := by
  obtain ⟨auth, request⟩ := k
  simp only [← List.mem_flatMap]
  cases request with
  | write w' c =>
    simp only [script, own, exec, List.mem_append]
    rw [Completion.script_run]
  | getDocuments q callback =>
    have hq : q.ids s = q.ids s₀ := hreads q (List.mem_singleton_self q)
    simp only [script, own, exec, if_pos hr, List.not_mem_nil, false_or]
    rw [QueryCallback.script_run, QueryCallback.mem_script_congr hq]
  | getDocument ref callback =>
    simp only [script, own, exec, if_pos hr, GetCallback.calls_run, List.flatMap_nil,
      List.not_mem_nil, or_self]

/-- A call that fails leaves nothing more to write than one that does not. -/
theorem Call.mem_script_spawned {k k' : Call} {r : Reply} {s₀ s : Firestore} {w : Write}
    (hreads : ∀ q ∈ k.reads, q.ids s = q.ids s₀) (hk' : k' ∈ (k.exec r s).2.calls)
    (hw : w ∈ k'.script s₀) : w ∈ k.script s₀ := by
  have hok : k' ∈ (k.exec { r with ok := true } s).2.calls := by
    obtain ⟨auth, request⟩ := k
    cases request with
    | write w' c => exact hk'
    | getDocuments q callback | getDocument ref callback =>
      simp only [exec] at hk' ⊢
      split at hk'
      next => exact hk'
      next => cases hk'
  exact (mem_script_exec rfl hreads).mpr (Or.inr ⟨k', hok, hw⟩)

theorem ScreenCompletion.reads_run {c : ScreenCompletion} {auth : Option Uid} {m : Moment}
    {k : Call} (hk : k ∈ (c.run auth m).calls) {q : Query} (hq : q ∈ k.reads) : q ∈ c.reads := by
  have hfeedback : ∀ {toUid type cartoon user},
      k ∈ FeedBackService.uploadFeedBack auth toUid type cartoon user m → q ∈ c.reads := by
    intro toUid type cartoon user hk
    obtain ⟨-, -, -, rfl⟩ := FeedBackService.mem_uploadFeedBack hk
    cases hq
  have hloop : ∀ {user didFan}, k ∈ CartoonService.updateMainUserAfterFan auth user didFan →
      q = cartoonsOf user.uid := by
    intro user didFan hk
    obtain ⟨uid, rfl⟩ := CartoonService.mem_updateMainUserAfterFan hk
    exact List.mem_singleton.mp hq
  cases c with
  | ignore => cases hk
  | antiFanned vc user => exact List.mem_singleton.mpr (hloop hk)
  | fanned vc user currentUser =>
    rcases List.mem_append.mp hk with hk | hk
    · exact hfeedback hk
    · exact List.mem_singleton.mpr (hloop hk)
  | liked cartoon user | commented cartoon user =>
    simp only [run] at hk
    exact hfeedback hk

/-- What the closure of a call queries, the call does. -/
theorem Call.reads_exec {k k' : Call} {r : Reply} {s : Firestore}
    (hk' : k' ∈ (k.exec r s).2.calls) {q : Query} (hq : q ∈ k'.reads) : q ∈ k.reads := by
  by_cases hread : ∀ w c, k.request ≠ .write w c
  · obtain ⟨b, uid, cartoonID, rfl⟩ := Call.mem_exec_read hread hk'
    cases hq
  · push Not at hread
    obtain ⟨w, c, hwrite⟩ := hread
    simp only [Call.exec, hwrite] at hk'
    simp only [Call.reads, hwrite]
    cases c with
    | screen c => exact ScreenCompletion.reads_run hk' hq
    | fanUsers uid currentUid c | antiFanUser uid currentUid c
    | likeCartoon uid cartoonId c | unLikeCartoon uid cartoonId c =>
      obtain rfl := List.mem_singleton.mp hk'
      exact hq

/-! ## On the way -/

section settling

/-- A store on the way from `s` to what the writes leave of it, inboxes apart. -/
def Playing (ws : List Write) (s s' : Firestore) : Prop :=
  ∀ ref, isFeedback ref = false →
    s'.lookup ref = s.lookup ref ∨ s'.lookup ref = (s.play ws).lookup ref

/-- The writes do not change what the query finds. -/
def Query.Steady (ws : List Write) (s : Firestore) (q : Query) : Prop :=
  q.ids (s.play ws) = q.ids s ∧ ∀ x, isFeedback ⟨q.collection, x⟩ = false

/-- A call whose writes are among the given ones and whose queries they leave alone. -/
structure Call.Plays (ws : List Write) (s : Firestore) (k : Call) : Prop where
  script : ∀ w ∈ k.script s, w ∈ ws
  reads : ∀ q ∈ k.reads, q.Steady ws s

variable {ws : List Write} {s s' : Firestore} {k : Call} {r : Reply}

theorem Playing.refl (ws : List Write) (s : Firestore) : Playing ws s s := fun _ _ => Or.inl rfl

/-- On the way a query finds what it finds at the start and at the end. -/
theorem Playing.ids (h : Playing ws s s') {q : Query} (hq : q.Steady ws s) :
    q.ids s' = q.ids s := by
  ext x
  rcases h ⟨q.collection, x⟩ (hq.2 x) with hsame | hfinal
  · exact Query.mem_ids_congr hsame
  · rw [Query.mem_ids_congr hfinal, hq.1]

/-- A write of the script leaves its document as the whole script does. -/
theorem Playing.lookup_apply (hws : Compatible ws) (h : Playing ws s s') {w : Write} (hw : w ∈ ws)
    (hbeside : isFeedback w.ref = false) :
    (w.apply s').lookup w.ref = (s.play ws).lookup w.ref := by
  rw [hws.lookup_play hw]
  rcases h w.ref hbeside with hsame | hfinal
  · exact Store.lookup_apply_congr w hsame
  · rw [hws.lookup_play hw] at hfinal
    exact Store.lookup_apply_again w hfinal

theorem Call.mem_script {w : Write} {c : Completion} (hreq : k.request = .write w c)
    (hbeside : isFeedback w.ref = false) : w ∈ k.script s := by
  simp only [Call.script, hreq]
  exact List.mem_append_left _ (mem_beside.mpr ⟨rfl, hbeside⟩)

/-- A document after an answer: as before, or as the script leaves it. -/
theorem Call.Plays.lookup_exec (hws : Compatible ws) (hs : Playing ws s s') (h : k.Plays ws s)
    {ref : DocRef} (hbeside : isFeedback ref = false) :
    (k.exec r s').1.lookup ref = s'.lookup ref ∨
      (∃ w ∈ k.script s, w.ref = ref) ∧ (k.exec r s').1.lookup ref = (s.play ws).lookup ref := by
  obtain ⟨auth, request⟩ := k
  cases request with
  | write w c =>
    simp only [Call.exec]
    by_cases hw : r.ok = true ∧ w.ref = ref
    · obtain ⟨hr, rfl⟩ := hw
      have hmem : w ∈ Call.script s ⟨auth, .write w c⟩ := Call.mem_script rfl hbeside
      rw [if_pos hr]
      exact Or.inr ⟨⟨w, hmem, rfl⟩, hs.lookup_apply hws (h.script w hmem) hbeside⟩
    · left
      split
      next hr => exact Store.lookup_apply_ne fun href => hw ⟨hr, href⟩
      next => rfl
  | getDocuments | getDocument => exact Or.inl rfl

theorem Call.Plays.exec (hws : Compatible ws) (hs : Playing ws s s') (h : k.Plays ws s) :
    Playing ws s (k.exec r s').1 := by
  intro ref hbeside
  rcases h.lookup_exec hws hs hbeside with hsame | ⟨-, hfinal⟩
  · rw [hsame]
    exact hs ref hbeside
  · exact Or.inr hfinal

theorem Call.Plays.ids (hs : Playing ws s s') (h : k.Plays ws s) :
    ∀ q ∈ k.reads, q.ids s' = q.ids s := fun q hq => hs.ids (h.reads q hq)

theorem Call.Plays.spawned (hs : Playing ws s s') (h : k.Plays ws s) {k' : Call}
    (hk' : k' ∈ (k.exec r s').2.calls) : k'.Plays ws s where
  script w hw := h.script w (Call.mem_script_spawned (h.ids hs) hk' hw)
  reads q hq := h.reads q (Call.reads_exec hk' hq)

/-- What an answered call owes is written, or a call of its closure owes it. -/
theorem Call.Plays.owes_exec (hws : Compatible ws) (hs : Playing ws s s') (h : k.Plays ws s)
    (hr : r.ok = true) {ref : DocRef} (howes : ∃ w ∈ k.script s, w.ref = ref) :
    (k.exec r s').1.lookup ref = (s.play ws).lookup ref ∨
      ∃ k' ∈ (k.exec r s').2.calls, ∃ w ∈ k'.script s, w.ref = ref := by
  obtain ⟨w, hw, rfl⟩ := howes
  rcases (Call.mem_script_exec hr (h.ids hs)).mp hw with hw | ⟨k', hk', hw⟩
  · left
    obtain ⟨auth, request⟩ := k
    cases request with
    | write w' c =>
      obtain ⟨rfl, hbeside⟩ := mem_beside.mp hw
      simp only [Call.exec, if_pos hr]
      exact hs.lookup_apply hws (h.script w (Call.mem_script rfl hbeside)) hbeside
    | getDocuments | getDocument => cases hw
  · exact Or.inr ⟨k', hk', w, hw, rfl⟩

theorem mem_exec_task {t t' : Task} {b : Backend} (ht' : t' ∈ (t.exec r b).2) :
    t'.call ∈ (t.call.exec r b.store).2.calls := by
  obtain ⟨k, hk, rfl⟩ := List.mem_map.mp ht'
  exact hk

theorem mem_task_exec {t : Task} {b : Backend} (hk : k ∈ (t.call.exec r b.store).2.calls) :
    ⟨t.origin, k⟩ ∈ (t.exec r b).2 := List.mem_map_of_mem hk

/-- Calls whose writes do not conflict settle the documents outside the inboxes. -/
def settling (ws : List Write) (hws : Compatible ws) (s : Firestore) :
    Settling Backend Task Reply {ref : DocRef // isFeedback ref = false} (Option Dictionary) where
  exec := Task.exec
  ok r := r.ok = true
  inv b := Playing ws s b.store
  valid t := t.call.Plays ws s
  view b ref := b.store.lookup ref.1
  final ref := (s.play ws).lookup ref.1
  owes t ref := ∃ w ∈ t.call.script s, w.ref = ref.1
  inv_exec hinv hvalid _ := hvalid.exec hws hinv
  valid_exec hinv hvalid _ _ ht' := hvalid.spawned hinv (mem_exec_task ht')
  view_exec hinv hvalid _ ref := hvalid.lookup_exec hws hinv ref.2
  owes_exec hinv hvalid hok _ howes := (hvalid.owes_exec hws hinv hok howes).imp_right
    fun ⟨_, hk, howes⟩ => ⟨_, mem_task_exec hk, howes⟩
  owes_spawned hinv hvalid _ _ ht' _ := fun ⟨w, hw, href⟩ =>
    ⟨w, Call.mem_script_spawned (hvalid.ids hinv) (mem_exec_task ht') hw, href⟩

end settling

/-! ## The operations -/

namespace Operation

variable (s : Firestore)

/-- The stars, the fans and the feed of a follow from a profile screen, or of an unfollow. -/
theorem script_didTapButton {me : Uid} (currentUser : User) (vc : ProfileID) {user : User}
    (hme : me ≠ user.uid) :
    (action (.didTapButton (some me) (some currentUser) vc user)).script s =
      .mark (!user.fan) ⟨.userStar me, user.uid⟩ :: .mark (!user.fan) ⟨.userFan user.uid, me⟩ ::
        ((cartoonsOf user.uid).documents s).map fun doc =>
          .mark (!user.fan) ⟨.userFeed me, doc.1⟩ := by
  have hcurrent : user.currentUser (some me) = false := by simp [User.currentUser, hme]
  simp only [script, calls, Action.calls, header, hcurrent, Bool.false_eq_true, if_false]
  cases user.fan <;> exact List.append_nil _

theorem script_header_self {me : Uid} (tabUser : Option User) (vc : ProfileID) {user : User}
    (hme : me = user.uid) : (action (.didTapButton (some me) tabUser vc user)).script s = [] := by
  cases tabUser with
  | none => rfl
  | some currentUser => simp [script, calls, Action.calls, header, User.currentUser, hme]

theorem script_header_out (tabUser : Option User) (vc : ProfileID) (user : User) :
    (action (.didTapButton none tabUser vc user)).script s = [] := by
  cases tabUser with
  | none => rfl
  | some currentUser =>
    simp only [script, calls, Action.calls, header]
    cases user.fan <;> rfl

theorem script_uploadCartoon (me : Uid) (u : CartoonService.Upload) :
    (action (.uploadCartoon (some me) u)).script s =
      .setData ⟨.cartoon, u.ref⟩ (u.data me) ::
        ((Query.documents { collection := .userFan me } s).map (fun doc =>
          .mark true ⟨.userFeed doc.1, u.ref⟩) ++ [.mark true ⟨.userFeed me, u.ref⟩]) := by
  simp [script, calls, Action.calls, CartoonService.uploadCartoon,
    CartoonService.updateMainUserAfterCartoon, Call.script, Write.beside, isFeedback, DocWrite.ref,
    Completion.script, ScreenCompletion.script, QueryCallback.script]

theorem script_likeCartoon (me : Uid) (cartoon : Cartoon) (user : User) :
    (action (.likeCartoon (some me) cartoon user)).script s =
      [.updateData ⟨.cartoon, cartoon.cartoonId⟩ (.ofList [("like", .int (cartoon.like + 1))]),
       .mark true ⟨.cartoonLikes cartoon.cartoonId, me⟩,
       .mark true ⟨.userLikes me, cartoon.cartoonId⟩] := rfl

theorem script_unLikeCartoon (me : Uid) {cartoon : Cartoon} (h : cartoon.like > 0) :
    (action (.unLikeCartoon (some me) cartoon)).script s =
      [.updateData ⟨.cartoon, cartoon.cartoonId⟩ (.ofList [("like", .int (cartoon.like - 1))]),
       .mark false ⟨.cartoonLikes cartoon.cartoonId, me⟩,
       .mark false ⟨.userLikes me, cartoon.cartoonId⟩] := by
  simp only [script, calls, Action.calls, CartoonService.unLikeCartoon, if_pos h]
  rfl

theorem script_unLikeCartoon_zero (me : Uid) {cartoon : Cartoon} (h : ¬ cartoon.like > 0) :
    (action (.unLikeCartoon (some me) cartoon)).script s = [] := by
  simp only [script, calls, Action.calls, CartoonService.unLikeCartoon, if_neg h]
  rfl

/-- The stars and fans of a follow from the notifications. -/
theorem script_fan (me uid : Uid) : (fan (some me) uid).script s =
    [.mark true ⟨.userStar me, uid⟩, .mark true ⟨.userFan uid, me⟩] := rfl

theorem script_unFan (me uid : Uid) : (unFan (some me) uid).script s =
    [.mark false ⟨.userStar me, uid⟩, .mark false ⟨.userFan uid, me⟩] := rfl

/-- An operation writes one document that has fields at most, and marks. -/
theorem compatible (o : Operation) : Compatible (o.script s) := by
  have hnil : Compatible ([] : List Write) := (Lib.Marks.nil true).compatible
  have hone : ∀ w : Write, Compatible [w] := fun w => hnil.cons List.not_mem_nil
  cases o with
  | action a =>
    cases a with
    | didTapButton auth tabUser vc user =>
      cases auth with
      | none =>
        rw [script_header_out]
        exact hnil
      | some me =>
        by_cases hme : me = user.uid
        · rw [script_header_self s tabUser vc hme]
          exact hnil
        · cases tabUser with
          | none => exact hnil
          | some currentUser =>
            rw [script_didTapButton s currentUser vc hme]
            exact (Lib.marks_map _ _ _).cons.cons.compatible
    | uploadCartoon auth u =>
      cases auth with
      | none => exact hnil
      | some me =>
        rw [script_uploadCartoon]
        refine ((Lib.marks_map _ _ _).append (Lib.Marks.nil true).cons).compatible.cons ?_
        simp
    | likeCartoon auth cartoon user =>
      cases auth with
      | none => exact hnil
      | some me =>
        rw [script_likeCartoon]
        refine (Lib.Marks.nil true).cons.cons.compatible.cons ?_
        simp
    | unLikeCartoon auth cartoon =>
      cases auth with
      | none => exact hnil
      | some me =>
        by_cases hlike : cartoon.like > 0
        · rw [script_unLikeCartoon s me hlike]
          refine (Lib.Marks.nil false).cons.cons.compatible.cons ?_
          simp
        · rw [script_unLikeCartoon_zero s me hlike]
          exact hnil
    | editCartoon auth type x title caption => exact hone _
  | loadComment auth tabUser cartoon comment m =>
    cases tabUser with
    | none => exact hnil
    | some currentUser => exact hone _
  | fan auth uid =>
    cases auth with
    | none => exact hnil
    | some me =>
      rw [script_fan]
      exact (Lib.Marks.nil true).cons.cons.compatible
  | unFan auth uid =>
    cases auth with
    | none => exact hnil
    | some me =>
      rw [script_unFan]
      exact (Lib.Marks.nil false).cons.cons.compatible
  | deleteCartoon | editUserData | userRegister => exact hone _

/-- No operation asks for notifications. -/
theorem reads_beside {o : Operation} {k : Call} (hk : k ∈ o.calls) {q : Query} (hq : q ∈ k.reads)
    (x : DocID) : isFeedback ⟨q.collection, x⟩ = false := by
  cases Operation.issues hk with
  | unfollow | follow | fans =>
    obtain rfl := List.mem_singleton.mp hq
    rfl
  | _ => cases hq

/-- No operation changes what its own queries find. -/
theorem reads_steady {o : Operation} {k : Call} (hk : k ∈ o.calls) {q : Query}
    (hq : q ∈ k.reads) : q.Steady (o.script s) s := by
  refine ⟨?_, reads_beside hk hq⟩
  ext x
  refine Query.mem_ids_congr (Store.lookup_play_ne fun w hw href => ?_)
  have hmem := List.mem_map_of_mem (f := DocWrite.ref) hw
  rw [href] at hmem
  cases Operation.issues hk with
  | @unfollow me currentUser vc user hne hfan | @follow me currentUser vc user hne hfan =>
    obtain rfl := List.mem_singleton.mp hq
    rw [script_didTapButton s currentUser vc hne] at hmem
    simp [cartoonsOf] at hmem
  | fans =>
    obtain rfl := List.mem_singleton.mp hq
    rw [script_uploadCartoon] at hmem
    simp at hmem
  | _ => cases hq

/-- Each call of an operation has its part in the script. -/
theorem plays {o : Operation} {k : Call} (hk : k ∈ o.calls) : k.Plays (o.script s) s :=
  ⟨fun _ hw => List.mem_flatMap.mpr ⟨k, hk, hw⟩, fun _ hq => reads_steady s hk hq⟩

/-- All calls of an operation are answered well, in any order: the documents end as its
script leaves them. -/
theorem settled {o : Operation} {m n : App}
    (h : (settling _ (o.compatible m.state.store) m.state.store).Since (m.start o) n)
    (hn : n.Quiet) {ref : DocRef} (hbeside : isFeedback ref = false) :
    n.state.store.lookup ref = (m.state.store.play (o.script m.state.store)).lookup ref := by
  obtain ⟨howed, hfree⟩ := h.settled hn ⟨ref, hbeside⟩
  by_cases href : (settling _ (o.compatible m.state.store) m.state.store).Owed (m.start o)
      ⟨ref, hbeside⟩
  · exact howed href
  · refine (hfree href).trans (Store.lookup_play_ne fun w hw hwref => href ?_).symm
    obtain ⟨k, hk, hw⟩ := List.mem_flatMap.mp hw
    exact ⟨⟨o, k⟩, List.mem_append_right _ (List.mem_map_of_mem hk), w, hw, hwref⟩

end Operation

end Toontagram
