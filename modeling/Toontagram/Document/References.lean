import Toontagram.Document.Kept

/-!
# Cartoons that other documents name

The identifier of a cartoon stands in the feeds, among the likes of the users
and in the notifications of likes and comments. These documents are written by
closures that run some time after the operation they belong to, and none of them
asks whether the cartoon is there. `deleteCartoon` deletes the document of the
cartoon and nothing else: what names it stays, although unfollowing takes the
cartoons out of the feed again and unliking takes them out of the likes.

`App.Linked` is the invariant: whatever is named, by a stored document or by one
that is on its way, is stored or on its way. It fails in three places, which
`App.careful` excludes: a deletion, or a failed write of an upload, while
something names the cartoon, and a like or a comment from an old copy of a
cartoon that is gone. `noDangling_of_careful` is the result, and
`noDangling_delete` the shortest run to a feed that names nothing.
-/

namespace Toontagram

open Lib (DocWrite Store run Along run_inv_along)

/-! ## What names a cartoon -/

/-- A document names the cartoon `x`. -/
def names (x : DocID) (ref : DocRef) (data : Dictionary) : Bool :=
  match ref.collection with
  | .userFeed _ => ref.documentID = x
  | .userLikes _ => ref.documentID = x
  | .userFeedback _ => data "cartoonID" = some (.string x)
  | _ => false

def Write.names (x : DocID) : Write → Bool
  | .setData ref data => Toontagram.names x ref data
  | .updateData ref fields => Toontagram.names x ref fields
  | .delete _ => false

/-- The completion will send feedback that names the cartoon. -/
def ScreenCompletion.names (x : DocID) (auth : Option Uid) : ScreenCompletion → Bool
  | .liked cartoon _ => cartoon.cartoonId = x && auth.any fun me => cartoon.uid ≠ me
  | .commented cartoon _ => cartoon.cartoonId = x && auth.any fun me => cartoon.uid ≠ me
  | _ => false

def Completion.names (x : DocID) (auth : Option Uid) : Completion → Bool
  | .screen c => c.names x auth
  | .fanUsers _ _ c => c.names x auth
  | .antiFanUser _ _ c => c.names x auth
  | .likeCartoon _ cartoonId c => cartoonId = x || c.names x auth
  | .unLikeCartoon _ _ c => c.names x auth

/-- The call writes a document that names the cartoon, or its closure will lead
to one. What `updateMainUserAfterFan` finds is not known yet. -/
def Call.names (x : DocID) (k : Call) : Bool :=
  match k.request with
  | .write w c => Write.names x w || c.names x k.auth
  | .getDocuments _ (.updateMainUserAfterCartoon _ cartoonID) => cartoonID = x
  | _ => false

/-- A stored document names the cartoon. -/
def Firestore.names (s : Firestore) (x : DocID) : Bool := Store.any s (Toontagram.names x)

/-- Every cartoon that is named exists. -/
structure NoDangling (s : Firestore) : Prop where
  feed : ∀ u x, s.has ⟨.userFeed u, x⟩ = true → s.has ⟨.cartoon, x⟩ = true
  likes : ∀ u x, s.has ⟨.userLikes u, x⟩ = true → s.has ⟨.cartoon, x⟩ = true
  feedback : ∀ r id data x, s.lookup ⟨.userFeedback r, id⟩ = some data →
    data "cartoonID" = some (.string x) → s.has ⟨.cartoon, x⟩ = true

theorem noDangling_of_names {s : Firestore}
    (h : ∀ x, Firestore.names s x = true → s.has ⟨.cartoon, x⟩ = true) : NoDangling s where
  feed := by
    intro u x hx
    obtain ⟨data, hdata⟩ := Option.isSome_iff_exists.mp hx
    exact h x (Store.any_iff.mpr ⟨_, data, hdata, decide_eq_true rfl⟩)
  likes := by
    intro u x hx
    obtain ⟨data, hdata⟩ := Option.isSome_iff_exists.mp hx
    exact h x (Store.any_iff.mpr ⟨_, data, hdata, decide_eq_true rfl⟩)
  feedback := by
    intro r id data x hdata hx
    exact h x (Store.any_iff.mpr ⟨_, data, hdata, decide_eq_true hx⟩)

/-! ## What a step adds -/

section step

variable {x : DocID}

/-- A document that is updated names what it named or what the fields name. -/
theorem names_merge {ref : DocRef} {data fields : Dictionary}
    (h : names x ref (data.merge fields) = true) :
    names x ref data = true ∨ names x ref fields = true := by
  obtain ⟨collection, id⟩ := ref
  cases collection with
  | userFeed u | userLikes u => exact Or.inl h
  | userFeedback r =>
    have h : (fields "cartoonID").or (data "cartoonID") = some (.string x) := of_decide_eq_true h
    rcases Option.or_eq_some_iff.mp h with h | ⟨-, h⟩
    · exact Or.inr (decide_eq_true h)
    · exact Or.inl (decide_eq_true h)
  | user | cartoon | userFan | userStar | cartoonLikes | comments => cases h

/-- What is named after a write was named before, or is named by it. -/
theorem names_apply {s : Firestore} {w : Write} (h : Firestore.names (w.apply s) x = true) :
    Firestore.names s x = true ∨ Write.names x w = true := by
  by_contra hnot
  obtain ⟨hs, hw⟩ := not_or.mp hnot
  have hstored : ∀ ref data, s.lookup ref = some data → ¬ names x ref data = true :=
    fun ref data hdata hx => hs (Store.any_iff.mpr ⟨ref, data, hdata, hx⟩)
  have hkeeps : w.Keeps fun ref data => ¬ names x ref data = true := by
    cases w with
    | setData ref data => exact hw
    | updateData ref fields =>
      intro data hdata hx
      rcases names_merge hx with hx | hx
      · exact hdata hx
      · exact hw hx
    | delete ref => trivial
  obtain ⟨ref, data, hdata, hx⟩ := Store.any_iff.mp h
  exact Store.all_apply hstored hkeeps ref data hdata hx

theorem names_uploadFeedBack {auth : Option Uid} {toUid : Uid} {type : FeedBackType}
    {cartoon : Option Cartoon} {user : User} {m : Moment} {k : Call}
    (hk : k ∈ FeedBackService.uploadFeedBack auth toUid type cartoon user m)
    (hx : k.names x = true) :
    (∃ me, auth = some me ∧ toUid ≠ me) ∧ ∃ c, cartoon = some c ∧ c.cartoonId = x := by
  obtain ⟨me, hauth, hself, rfl⟩ := FeedBackService.mem_uploadFeedBack hk
  refine ⟨⟨me, hauth, hself⟩, ?_⟩
  have hdata : FeedBackService.data type cartoon user m "cartoonID" = some (.string x) := by
    simpa [Call.names, Write.names, names, Completion.names, ScreenCompletion.names] using hx
  rw [FeedBackService.data_cartoonID] at hdata
  obtain ⟨c, rfl, hc⟩ := Option.map_eq_some_iff.mp hdata
  exact ⟨c, rfl, Value.string.inj hc⟩

/-- What a screen's completion issues names what the completion was to name. -/
theorem ScreenCompletion.names_run {c : ScreenCompletion} {auth : Option Uid} {m : Moment}
    {k : Call} (hk : k ∈ (c.run auth m).calls) (hx : k.names x = true) :
    c.names x auth = true := by
  have hquery : ∀ {user didFan}, k ∉ CartoonService.updateMainUserAfterFan auth user didFan := by
    intro user didFan hk
    unfold CartoonService.updateMainUserAfterFan at hk
    split at hk
    next => cases hk
    next =>
      rw [List.mem_singleton.mp hk] at hx
      cases hx
  cases c with
  | ignore => cases hk
  | antiFanned vc user => exact absurd hk hquery
  | fanned vc user currentUser =>
    rcases List.mem_append.mp hk with hk | hk
    · obtain ⟨-, c, hc, -⟩ := names_uploadFeedBack hk hx
      cases hc
    · exact absurd hk hquery
  | liked cartoon user | commented cartoon user =>
    simp only [ScreenCompletion.run] at hk
    obtain ⟨⟨me, rfl, hne⟩, c, hc, hid⟩ := names_uploadFeedBack hk hx
    cases hc
    simp [ScreenCompletion.names, hid, hne]

theorem Completion.names_run {c : Completion} {auth : Option Uid} {m : Moment} {k : Call}
    (hk : k ∈ (c.run auth m).calls) (hx : k.names x = true) : c.names x auth = true := by
  cases c with
  | screen c => exact ScreenCompletion.names_run hk hx
  | fanUsers | antiFanUser | unLikeCartoon =>
    rw [List.mem_singleton.mp hk] at hx
    exact hx
  | likeCartoon uid cartoonId c =>
    rw [List.mem_singleton.mp hk] at hx
    exact hx

/-- A query for the cartoons of a followed user asks for cartoons. -/
def Call.AsksCartoons (k : Call) : Prop :=
  ∀ q uid didFan, k.request = .getDocuments q (.updateMainUserAfterFan uid didFan) →
    q.collection = .cartoon

/-- What a query finds is stored in its collection. -/
theorem Query.has_of_mem {q : Query} {s : Firestore} {doc : DocID × Dictionary}
    (h : doc ∈ q.documents s) : s.has ⟨q.collection, doc.1⟩ = true := by
  have hmem : doc ∈ s.documents q.collection := by
    unfold Query.documents at h
    split at h
    next => exact h
    next => exact (List.mem_filter.mp h).1
  exact Store.mem_documents_map_fst.mp (List.mem_map_of_mem hmem)

/-- What a closure issues names a cartoon that its call was to name, or one that
a query has just found. -/
theorem Call.names_exec {k k' : Call} {r : Reply} {s : Firestore} (hk : k.AsksCartoons)
    (hk' : k' ∈ (k.exec r s).2.calls) (hx : k'.names x = true) :
    k.names x = true ∨ (∀ w c, k.request ≠ .write w c) ∧ s.has ⟨.cartoon, x⟩ = true := by
  obtain ⟨auth, request⟩ := k
  cases request with
  | write w c =>
    left
    simp only [Call.names, Completion.names_run hk' hx, Bool.or_true]
  | getDocuments q callback =>
    simp only [Call.exec] at hk'
    split at hk'
    next =>
      cases callback with
      | updateMainUserAfterFan uid didFan =>
        right
        refine ⟨fun w c h => (by cases h), ?_⟩
        obtain ⟨doc, hdoc, rfl⟩ := List.mem_map.mp hk'
        have hfound := Query.has_of_mem hdoc
        rw [hk q uid didFan rfl] at hfound
        cases didFan with
        | true =>
          obtain rfl : doc.1 = x := of_decide_eq_true (Bool.or_eq_true_iff.mp hx |>.resolve_right
            Bool.false_ne_true)
          exact hfound
        | false => cases hx
      | updateMainUserAfterCartoon uid cartoonID =>
        left
        rcases List.mem_append.mp hk' with hk' | hk'
        · obtain ⟨doc, -, rfl⟩ := List.mem_map.mp hk'
          exact (Bool.or_false _).symm.trans hx
        · rw [List.mem_singleton.mp hk'] at hx
          exact (Bool.or_false _).symm.trans hx
    next => cases hk'
  | getDocument ref callback =>
    simp only [Call.exec] at hk'
    split at hk'
    next =>
      rw [GetCallback.calls_run] at hk'
      cases hk'
    next => cases hk'

/-- The queries that closures issue for a followed user ask for cartoons. -/
theorem Call.asksCartoons_exec {k k' : Call} {r : Reply} {s : Firestore}
    (hk' : k' ∈ (k.exec r s).2.calls) : k'.AsksCartoons := by
  intro q uid didFan hreq
  cases Call.spawned_exec hk' with
  | cartoons =>
    cases hreq
    rfl
  | feed | feedback | fan | likes => cases hreq

theorem Operation.asksCartoons {o : Operation} {k : Call} (hk : k ∈ o.calls) :
    k.AsksCartoons := by
  intro q uid didFan hreq
  cases Operation.issues hk <;> cases hreq

/-- The cartoon that an operation will name because its screen has a copy of it.
A comment to the own cartoon sends no feedback. -/
def Operation.names : Operation → Option DocID
  | .action (.likeCartoon (some _) cartoon _) => some cartoon.cartoonId
  | .loadComment (some me) (some _) cartoon _ _ =>
    if cartoon.uid = me then none else some cartoon.cartoonId
  | _ => none

/-- What an operation issues names this cartoon, or the one it uploads. -/
theorem Operation.names_calls {o : Operation} {k : Call} (hk : k ∈ o.calls)
    (hx : k.names x = true) :
    o.names = some x ∨ ∃ k' ∈ o.calls, k'.sets ⟨.cartoon, x⟩ = true := by
  cases Operation.issues hk with
  | likeMark =>
    left
    simp only [Call.names, Write.names, Toontagram.names, Completion.names, ScreenCompletion.names,
      Bool.false_or, Bool.or_eq_true, Bool.and_eq_true, decide_eq_true_eq] at hx
    rcases hx with hx | ⟨hx, -⟩ <;> exact congrArg some hx
  | @comment auth currentUser cartoon comment m data =>
    left
    cases auth with
    | none => simp [Call.names, Write.names, Toontagram.names, Completion.names,
        ScreenCompletion.names] at hx
    | some me =>
      simp only [Call.names, Write.names, Toontagram.names, Completion.names,
        ScreenCompletion.names, Option.any_some, Bool.false_or, Bool.and_eq_true,
        decide_eq_true_eq] at hx
      rw [Operation.names, if_neg hx.2, hx.1]
  | @fans a u =>
    obtain rfl : u.ref = x := of_decide_eq_true hx
    exact Or.inr ⟨_, List.mem_cons_self .., decide_eq_true rfl⟩
  | follow | unfollow | post | likeNumber | unLikeNumber | unLikeMark | edit | edited | fan
  | unFan | deleteCartoon | editUserData | userRegister => cases hx

end step

/-! ## The invariant -/

/-- The cartoon that is not there after the answer: it is deleted, or the write
that was to add it has failed. -/
def Task.loses (t : Task) (r : Reply) : Option DocID :=
  match t.call.request with
  | .write (.delete ⟨.cartoon, x⟩) _ => if r.ok then some x else none
  | .write (.setData ⟨.cartoon, x⟩ _) _ => if r.ok then none else some x
  | _ => none

namespace App

/-- A stored document names the cartoon, or one that is on its way will. -/
def Names (n : App) (x : DocID) : Prop :=
  Firestore.names n.state.store x = true ∨ ∃ t ∈ n.inflight, t.call.names x = true

/-- The cartoon is stored or on its way. -/
def There (n : App) (x : DocID) : Prop :=
  n.state.store.has ⟨.cartoon, x⟩ = true ∨ ∃ t ∈ n.inflight, t.call.sets ⟨.cartoon, x⟩ = true

instance (n : App) (x : DocID) : Decidable (n.Names x) :=
  inferInstanceAs (Decidable (_ = true ∨ ∃ t ∈ n.inflight, _))

/-- The steps after which whatever is named is there: a copy is liked or commented
while the cartoon is stored, and a cartoon is lost only when nothing names it. -/
def careful (n : App) : Event → Bool
  | .act o => o.names.all fun x => n.state.store.has ⟨.cartoon, x⟩
  | .answer i r => ((n.inflight[i]?).bind fun t => t.loses r).all fun x => !decide (n.Names x)
  | _ => true

structure Linked (n : App) : Prop where
  asks : ∀ t ∈ n.inflight, t.call.AsksCartoons
  there : ∀ x, n.Names x → n.There x

variable {n n' : App} {x : DocID}

theorem Linked.opened : (opened ∅).Linked where
  asks := fun _ h => nomatch h
  there := by
    intro x hnames
    rcases hnames with h | ⟨t, ht, -⟩
    · cases h
    · cases ht

theorem Linked.act (h : n.Linked) {o : Operation} (hcareful : n.careful (.act o) = true) :
    (n.start o).Linked where
  asks := by
    intro t ht
    rcases mem_start ht with ht | ⟨k, hk, rfl⟩
    · exact h.asks t ht
    · exact Operation.asksCartoons hk
  there := by
    intro x hx
    have hold : n.Names x → (n.start o).There x := by
      intro hx
      rcases h.there x hx with hhas | ⟨t, ht, hsets⟩
      · exact Or.inl hhas
      · exact Or.inr ⟨t, List.mem_append_left _ ht, hsets⟩
    rcases hx with hx | ⟨t, ht, hx⟩
    · exact hold (Or.inl hx)
    · rcases mem_start ht with ht | ⟨k, hk, rfl⟩
      · exact hold (Or.inr ⟨t, ht, hx⟩)
      · rcases Operation.names_calls hk hx with hnames | ⟨k', hk', hsets⟩
        · -- a copy that is liked or commented, whose cartoon is stored
          simp only [careful, hnames, Option.all_some] at hcareful
          exact Or.inl hcareful
        · exact Or.inr ⟨⟨o, k'⟩, List.mem_append_right _ (List.mem_map_of_mem hk'), hsets⟩

/-- A stored cartoon stays, unless the answered call deletes it. -/
theorem has_or_loses {t : Task} {r : Reply} {s : Firestore} (hx : s.has ⟨.cartoon, x⟩ = true) :
    Store.has (t.call.exec r s).1 ⟨.cartoon, x⟩ = true ∨ t.loses r = some x := by
  rcases answered_cases t r s with ⟨-, hstore⟩ | ⟨w, c, hreq, hlog, hstore⟩
  · rw [hstore]
    exact Or.inl hx
  · rw [hstore, Store.has_apply, DocWrite.leavesAt]
    split
    next href =>
      cases w with
      | setData ref data => exact Or.inl rfl
      | updateData ref fields => exact Or.inl hx
      | delete ref =>
        obtain rfl : ref = ⟨.cartoon, x⟩ := href
        have hok : r.ok = true := by
          by_contra hok
          simp [Task.logged, hreq, hok] at hlog
        right
        simp only [Task.loses, hreq, hok, if_true]
    next => exact Or.inl hx

/-- A cartoon on its way arrives, unless its write fails. -/
theorem has_or_loses_of_sets {t : Task} {r : Reply} {s : Firestore}
    (hx : t.call.sets ⟨.cartoon, x⟩ = true) :
    Store.has (t.call.exec r s).1 ⟨.cartoon, x⟩ = true ∨ t.loses r = some x := by
  obtain ⟨data, c, hreq⟩ := Call.sets_cases hx
  cases hok : r.ok with
  | true =>
    left
    simp only [Call.exec, hreq, hok, if_true]
    exact Store.has_apply_setData_self ..
  | false =>
    right
    simp [Task.loses, hreq, hok]

section answer

variable {pre post : List Task} {t : Task} {r : Reply}

/-- What is named after an answer was named before, or is a cartoon that the
query of a follow has found. -/
theorem Linked.names_answered (h : n.Linked) (hin : n.inflight = pre ++ t :: post)
    (hx : Firestore.names (t.call.exec r n.state.store).1 x = true ∨
      ∃ t' ∈ pre ++ post ++ (t.call.exec r n.state.store).2.calls.map fun k =>
        (⟨t.origin, k⟩ : Task), t'.call.names x = true) :
    n.Names x ∨
      (∀ w c, t.call.request ≠ .write w c) ∧ n.state.store.has ⟨.cartoon, x⟩ = true := by
  have ht : t ∈ n.inflight := by rw [hin]; simp
  rcases hx with hx | ⟨t', ht', hx⟩
  · rcases answered_cases t r n.state.store with ⟨-, hstore⟩ | ⟨w, c, hreq, -, hstore⟩
    · rw [hstore] at hx
      exact Or.inl (Or.inl hx)
    · rw [hstore] at hx
      rcases names_apply hx with hx | hx
      · exact Or.inl (Or.inl hx)
      · exact Or.inl (Or.inr ⟨t, ht, by simp [Call.names, hreq, hx]⟩)
  · rcases mem_answered hin ht' with ht' | ⟨k, hk, rfl⟩
    · exact Or.inl (Or.inr ⟨t', ht', hx⟩)
    · rcases Call.names_exec (h.asks t ht) hk hx with hx | hread
      · exact Or.inl (Or.inr ⟨t, ht, hx⟩)
      · exact Or.inr hread

/-- A cartoon that is there stays there, unless this answer loses it. -/
theorem There.answered (hx : n.There x) (hin : n.inflight = pre ++ t :: post) :
    t.loses r = some x ∨ Store.has (t.call.exec r n.state.store).1 ⟨.cartoon, x⟩ = true ∨
      ∃ t' ∈ pre ++ post ++ (t.call.exec r n.state.store).2.calls.map fun k =>
        (⟨t.origin, k⟩ : Task), t'.call.sets ⟨.cartoon, x⟩ = true := by
  rcases hx with hhas | ⟨t', ht', hsets⟩
  · rcases has_or_loses (t := t) (r := r) hhas with hhas | hloses
    · exact Or.inr (Or.inl hhas)
    · exact Or.inl hloses
  · rw [hin] at ht'
    rcases Lib.Flight.mem_answered ((t.call.exec r n.state.store).2.calls.map fun k =>
      (⟨t.origin, k⟩ : Task)) ht' with rfl | ht'
    · rcases has_or_loses_of_sets (r := r) (s := n.state.store) hsets with hhas | hloses
      · exact Or.inr (Or.inl hhas)
      · exact Or.inl hloses
    · exact Or.inr (Or.inr ⟨t', ht', hsets⟩)

end answer

theorem Linked.answer (h : n.Linked) {i : Nat} {r : Reply}
    (hcareful : n.careful (.answer i r) = true) (hstep : n.step (.answer i r) = some n') :
    n'.Linked := by
  obtain ⟨pre, t, post, hin, hlen, rfl⟩ := step_answer hstep
  have ht : t ∈ n.inflight := by rw [hin]; simp
  constructor
  · intro t' ht'
    rcases mem_answered hin ht' with ht' | ⟨k, hk, rfl⟩
    · exact h.asks t' ht'
    · exact Call.asksCartoons_exec hk
  · intro x hx
    simp only [careful, hin, Lib.Flight.getElem?_answered hlen, Option.bind_some] at hcareful
    rcases h.names_answered hin hx with hnames | ⟨hread, hhas⟩
    · rcases (h.there x hnames).answered (r := r) hin with hloses | hthere
      · -- careful: what is lost is not named
        rw [hloses] at hcareful
        simp only [Option.all_some, Bool.not_eq_true', decide_eq_false_iff_not] at hcareful
        exact absurd hnames hcareful
      · exact hthere
    · have hstored : n.There x := Or.inl hhas
      rcases hstored.answered (r := r) hin with hloses | hthere
      · -- an answered query loses nothing
        unfold Task.loses at hloses
        split at hloses
        next hreq => exact absurd hreq (hread _ _)
        next hreq => exact absurd hreq (hread _ _)
        next => cases hloses
      · exact hthere

theorem Linked.step (h : n.Linked) {e : Event} (hcareful : n.careful e = true)
    (hstep : n.step e = some n') : n'.Linked := by
  cases e with
  | act o =>
    obtain ⟨-, -, rfl⟩ := step_act hstep
    exact h.act hcareful
  | answer i r => exact h.answer hcareful hstep
  | fetchCartoon | fetchFeedBack =>
    cases hstep
    exact ⟨h.asks, h.there⟩

end App

/-! ## The result -/

/-- For every run of any number of clients, in any order, whose steps are all
careful: whatever names a cartoon, the cartoon is stored or its write is in
flight, and when no call is in flight there are no dangling references. -/
theorem noDangling_of_careful {es : List App.Event} {n : App}
    (hrun : run App.step (App.opened ∅) es = some n)
    (hcareful : Along App.step (fun n e => App.careful n e = true) (App.opened ∅) es) :
    (∀ x, Firestore.names n.state.store x = true → n.There x) ∧
      (n.Quiet → NoDangling n.state.store) := by
  have hlinked : n.Linked :=
    run_inv_along (fun _ _ _ h hok hstep => h.step hok hstep) es App.Linked.opened hcareful hrun
  have hthere : ∀ x, Firestore.names n.state.store x = true → n.There x :=
    fun x hx => hlinked.there x (Or.inl hx)
  refine ⟨hthere, fun hquiet => noDangling_of_names fun x hx => ?_⟩
  rcases hthere x hx with hhas | ⟨t, ht, -⟩
  · exact hhas
  · rw [show n.inflight = [] from hquiet] at ht
    cases ht

namespace App

/-- The reader likes the author's cartoon and comments on it. -/
def response : List Event :=
  [uploadByAuthor "c", success 0, success 0, success 0, read "c",
    .act (.action (.likeCartoon (some "reader") (posted "c") (User.init .empty))),
    success 0, success 0, success 0, success 0,
    .act (.loadComment (some "reader") (some (User.init .empty)) (posted "c") "" ⟨"id", ⟨0, 0⟩⟩),
    success 0, success 0]

def afterResponse : App := (run step (opened ∅) response).get (by decide)

/-- The author deletes the cartoon that he has just uploaded. -/
def withdrawal : List Event :=
  [uploadByAuthor "c", success 0, success 0, success 0, read "c",
    .act (.deleteCartoon (some "author") (posted "c")), success 0]

end App

theorem noDangling_of_careful_response : NoDangling App.afterResponse.state.store ∧
    App.afterResponse.state.store.has ⟨.userLikes "reader", "c"⟩ = true ∧
    App.afterResponse.state.store.has ⟨.userFeedback "author", "id"⟩ = true :=
  ⟨(@noDangling_of_careful App.response App.afterResponse (Option.some_get _).symm
    (by decide)).2 (by decide), by decide, by decide⟩

/-- The author's own feed names a cartoon that he has deleted. -/
theorem noDangling_delete : ∃ n,
    run App.step (App.opened ∅) App.withdrawal = some n ∧ n.Quiet ∧
      n.state.store.has ⟨.userFeed "author", "c"⟩ = true ∧
      n.state.store.has ⟨.cartoon, "c"⟩ = false ∧ ¬ NoDangling n.state.store :=
  ⟨(run App.step (App.opened ∅) App.withdrawal).get (by decide), (Option.some_get _).symm,
    by decide, by decide, by decide,
    fun h => absurd (h.feed "author" "c" (by decide)) (by decide)⟩

end Toontagram
