import Toontagram.Api.Finish
import Toontagram.Feed.Asked

/-!
# While an account is away

Everybody else goes on: uploads, follows, likes. None of it changes what the account has
decided, the stars, the likes and its places among the fans of others; and its feed loses
nothing and gains just the new cartoons of the authors it is a fan of
(`App.feed_away`), whatever the others do to each other at the same time.
-/

namespace Toontagram

open Lib (DocWrite Store run run_inv_of_forall)
open CartoonService (Upload)

section away

variable (v : Uid)

/-- A document by which the account says what it likes and whom it follows. -/
def Chosen (ref : DocRef) : Prop :=
  match ref.collection with
  | .userStar uid => uid = v
  | .userLikes uid => uid = v
  | .userFan _ => ref.documentID = v
  | .cartoonLikes _ => ref.documentID = v
  | _ => False

/-- A write that is not the account's: it chooses nothing for it, and brings only wanted
cartoons into its feed. -/
def Write.Foreign (gained : DocID → Prop) (w : Write) : Prop :=
  ¬ Chosen v w.ref ∧ ∀ x, w.ref = ⟨.userFeed v, x⟩ → w = .mark true ⟨.userFeed v, x⟩ ∧ gained x

/-- A completion that writes no second document for the account. -/
def Completion.Foreign : Completion → Prop
  | .screen _ => True
  | .fanUsers _ currentUid _ => currentUid ≠ v
  | .antiFanUser _ currentUid _ => currentUid ≠ v
  | .likeCartoon uid _ _ => uid ≠ v
  | .unLikeCartoon uid _ _ => uid ≠ v

/-- A call that is not the account's, on a store where this is a fan of `idols`. -/
def Call.Foreign (idols : Uid → Prop) (posts : Uid → DocID → Prop) (k : Call) : Prop :=
  match k.request with
  | .write w c => Write.Foreign v (fun x => ∃ author, posts author x ∧ idols author) w ∧
    c.Foreign v
  | .getDocuments _ (.updateMainUserAfterFan uid _) => uid ≠ v
  | .getDocuments q (.updateMainUserAfterCartoon uid cartoonID) =>
    q = { collection := .userFan uid } ∧ uid ≠ v ∧ posts uid cartoonID
  | .getDocument _ _ => True

end away

section step

variable {v : Uid} {idols : Uid → Prop} {posts : Uid → DocID → Prop}

/-- Marks of somebody else's feed, and of the account's if they are wanted. -/
theorem foreign_feed {gained : DocID → Prop} {b : Bool} {u : Uid} {x : DocID}
    (h : u = v → b = true ∧ gained x) :
    Write.Foreign v gained (.mark b ⟨.userFeed u, x⟩) := by
  constructor
  · rw [DocWrite.ref_mark]
    exact id
  · intro y hy
    rw [DocWrite.ref_mark] at hy
    injection hy with hfeed hx
    obtain rfl := Collection.userFeed.inj hfeed
    obtain ⟨rfl, hgained⟩ := h rfl
    exact hx ▸ ⟨rfl, hgained⟩

/-- A document that is neither chosen nor in a feed. -/
theorem foreign_of_ne {gained : DocID → Prop} {w : Write} (hchosen : ¬ Chosen v w.ref)
    (hfeed : ∀ u, w.ref.collection ≠ .userFeed u) : Write.Foreign v gained w :=
  ⟨hchosen, fun _ hx => absurd (congrArg Lib.DocRef.collection hx) (hfeed v)⟩

/-! ## Answers -/

theorem ScreenCompletion.foreign_run {c : ScreenCompletion} {auth : Option Uid}
    (hauth : auth ≠ some v) {m : Moment} {k : Call} (hk : k ∈ (c.run auth m).calls) :
    k.Foreign v idols posts := by
  have hfeedback : ∀ {toUid type cartoon user},
      k ∈ FeedBackService.uploadFeedBack auth toUid type cartoon user m →
      k.Foreign v idols posts := by
    intro toUid type cartoon user hk
    obtain ⟨-, -, -, rfl⟩ := FeedBackService.mem_uploadFeedBack hk
    exact ⟨foreign_of_ne id (by intro u hu; cases hu), trivial⟩
  have hloop : ∀ {user didFan}, k ∈ CartoonService.updateMainUserAfterFan auth user didFan →
      k.Foreign v idols posts := by
    intro user didFan hk
    cases auth with
    | none => cases hk
    | some me =>
      obtain rfl := List.mem_singleton.mp hk
      exact fun hme => hauth (congrArg some hme)
  cases c with
  | ignore => cases hk
  | antiFanned vc user => exact hloop hk
  | fanned vc user currentUser =>
    rcases List.mem_append.mp hk with hk | hk
    · exact hfeedback hk
    · exact hloop hk
  | liked cartoon user | commented cartoon user =>
    simp only [ScreenCompletion.run] at hk
    exact hfeedback hk

theorem Completion.Foreign.run {c : Completion} {auth : Option Uid} (h : c.Foreign v)
    (hauth : auth ≠ some v) {m : Moment} {k : Call} (hk : k ∈ (c.run auth m).calls) :
    k.Foreign v idols posts := by
  cases c with
  | screen c => exact ScreenCompletion.foreign_run hauth hk
  | fanUsers uid currentUid c | antiFanUser uid currentUid c
  | likeCartoon uid cartoonId c | unLikeCartoon uid cartoonId c =>
    obtain rfl := List.mem_singleton.mp hk
    exact ⟨foreign_of_ne h (by intro u hu; cases hu), trivial⟩

/-- The loops of others: an upload reaches the account where it is a fan. -/
theorem Call.Foreign.exec {k k' : Call} (h : k.Foreign v idols posts)
    (hauth : k.auth ≠ some v) {r : Reply} {s : Firestore}
    (hs : ∀ author, s.has ⟨.userFan author, v⟩ = true → idols author)
    (hk' : k' ∈ (k.exec r s).2.calls) : k'.Foreign v idols posts := by
  obtain ⟨auth, request⟩ := k
  cases request with
  | write w c => exact Completion.Foreign.run h.2 hauth hk'
  | getDocuments q callback =>
    simp only [Call.exec] at hk'
    split at hk'
    next =>
      cases callback with
      | updateMainUserAfterFan uid didFan =>
        have huid : uid ≠ v := h
        obtain ⟨doc, -, rfl⟩ := List.mem_map.mp hk'
        cases didFan with
        | false => exact ⟨foreign_feed (b := false) fun hv => absurd hv huid, trivial⟩
        | true => exact ⟨foreign_feed (b := true) fun hv => absurd hv huid, trivial⟩
      | updateMainUserAfterCartoon uid cartoonID =>
        obtain ⟨rfl, huid, hposts⟩ := h
        rcases List.mem_append.mp hk' with hk' | hk'
        · obtain ⟨doc, hdoc, rfl⟩ := List.mem_map.mp hk'
          refine ⟨foreign_feed (b := true) fun hv => ⟨rfl, uid, hposts, hs uid ?_⟩, trivial⟩
          have hmem : (doc.1, doc.2) ∈ s.documents (.userFan uid) := hdoc
          rw [← hv, Store.has, Store.mem_documents.mp hmem]
          rfl
        · obtain rfl := List.mem_singleton.mp hk'
          exact ⟨foreign_feed (b := true) fun hv => absurd hv huid, trivial⟩
    next => cases hk'
  | getDocument ref callback =>
    simp only [Call.exec] at hk'
    split at hk'
    next =>
      rw [GetCallback.calls_run] at hk'
      cases hk'
    next => cases hk'

/-- What somebody else's operation issues. -/
theorem Operation.foreign {o : Operation} {k : Call} (hk : k ∈ o.calls) (ho : o.auth ≠ some v)
    (hposts : ∀ author x, o.posts = some (author, x) → posts author x) :
    k.Foreign v idols posts := by
  have hne : ∀ {me : Uid}, o.auth = some me → me ≠ v := fun hme hv => ho (hme.trans (by rw [hv]))
  cases Operation.issues hk with
  | follow | unfollow | likeMark | unLikeMark | fan | unFan =>
    have hme := hne rfl
    exact ⟨foreign_of_ne hme (by intro u hu; cases hu), hme⟩
  | fans => exact ⟨rfl, hne rfl, hposts _ _ rfl⟩
  | edited => trivial
  | _ => exact ⟨foreign_of_ne id (by intro u hu; cases hu), trivial⟩

end step

namespace App

/-- The event is not one of the account, and its uploads are among those that count. -/
def Event.Without (v : Uid) (posts : Uid → DocID → Prop) : Event → Prop
  | .act o => o.auth ≠ some v ∧ ∀ author x, o.posts = some (author, x) → posts author x
  | _ => True

variable {v : Uid} {posts : Uid → DocID → Prop} {n₀ n n' : App}

/-- What has become of the account's documents since `n₀`. -/
structure Away (v : Uid) (posts : Uid → DocID → Prop) (n₀ n : App) : Prop where
  chosen : ∀ ref, Chosen v ref → n.state.store.lookup ref = n₀.state.store.lookup ref
  flight : ∀ t ∈ n.inflight, t.call.auth ≠ some v ∧
    t.call.Foreign v (fun author => n₀.state.store.has ⟨.userFan author, v⟩ = true) posts
  kept : ∀ x, n₀.state.store.has ⟨.userFeed v, x⟩ = true →
    n.state.store.has ⟨.userFeed v, x⟩ = true
  gained : ∀ x, n.state.store.has ⟨.userFeed v, x⟩ = true →
    n₀.state.store.has ⟨.userFeed v, x⟩ = true ∨
    ∃ author, posts author x ∧ n₀.state.store.has ⟨.userFan author, v⟩ = true

theorem Away.refl (hquiet : n.Quiet) : Away v posts n n where
  chosen := fun _ _ => rfl
  flight := by
    intro t ht
    rw [hquiet] at ht
    cases ht
  kept := fun _ h => h
  gained := fun _ h => Or.inl h

theorem Away.idol (h : Away v posts n₀ n) (author : Uid) :
    n.state.store.has ⟨.userFan author, v⟩ = n₀.state.store.has ⟨.userFan author, v⟩ := by
  rw [Store.has, h.chosen ⟨.userFan author, v⟩ rfl, Store.has]

/-- An answer leaves the feed of the account as it is, or brings a wanted cartoon into it. -/
theorem Away.feed_exec (h : Away v posts n₀ n) {t : Task} (ht : t ∈ n.inflight) (r : Reply)
    (x : DocID) : Store.has (t.call.exec r n.state.store).1 ⟨.userFeed v, x⟩ =
        n.state.store.has ⟨.userFeed v, x⟩ ∨
      Store.has (t.call.exec r n.state.store).1 ⟨.userFeed v, x⟩ = true ∧
        ∃ author, posts author x ∧ n₀.state.store.has ⟨.userFan author, v⟩ = true := by
  have hforeign := (h.flight t ht).2
  rcases answered_cases t r n.state.store with ⟨-, hstore⟩ | ⟨w, c, hreq, -, hstore⟩
  · rw [hstore]
    exact Or.inl rfl
  · simp only [Call.Foreign, hreq] at hforeign
    obtain ⟨⟨-, hfeed⟩, -⟩ := hforeign
    rw [hstore]
    by_cases href : w.ref = ⟨.userFeed v, x⟩
    · obtain ⟨hw, hgained⟩ := hfeed x href
      rw [hw, Store.has_apply_mark, if_pos rfl]
      exact Or.inr ⟨rfl, hgained⟩
    · exact Or.inl (Store.has_apply_ne href)

theorem Away.answer (h : Away v posts n₀ n) {i : Nat} {r : Reply}
    (hstep : n.step (.answer i r) = some n') : Away v posts n₀ n' := by
  obtain ⟨pre, t, post, hin, -, rfl⟩ := step_answer hstep
  have ht : t ∈ n.inflight := by rw [hin]; simp
  obtain ⟨hauth, hforeign⟩ := h.flight t ht
  constructor
  · intro ref href
    rw [← h.chosen ref href]
    rcases answered_cases t r n.state.store with ⟨-, hstore⟩ | ⟨w, c, hreq, -, hstore⟩
    · rw [hstore]
    · simp only [Call.Foreign, hreq] at hforeign
      rw [hstore]
      refine Store.lookup_apply_ne fun hw => hforeign.1.1 ?_
      rw [hw]
      exact href
  · intro t' ht'
    rcases mem_answered hin ht' with ht' | ⟨k, hk, rfl⟩
    · exact h.flight t' ht'
    · refine ⟨(Call.auth_exec hk).symm ▸ hauth, ?_⟩
      exact hforeign.exec hauth (fun author hauthor => h.idol author ▸ hauthor) hk
  · intro x hx
    rcases h.feed_exec ht r x with hsame | ⟨hhas, -⟩
    · exact hsame.trans (h.kept x hx)
    · exact hhas
  · intro x hx
    rcases h.feed_exec ht r x with hsame | ⟨-, hgained⟩
    · exact h.gained x (hsame.symm.trans hx)
    · exact Or.inr hgained

/-- Calls of others join. -/
theorem Away.issue (h : Away v posts n₀ n) {ts : List Task}
    (hts : ∀ t ∈ ts, t.call.auth ≠ some v ∧
      t.call.Foreign v (fun author => n₀.state.store.has ⟨.userFan author, v⟩ = true) posts) :
    Away v posts n₀ (n.issue ts) := by
  refine ⟨h.chosen, fun t ht => ?_, h.kept, h.gained⟩
  rcases List.mem_append.mp ht with ht | ht
  · exact h.flight t ht
  · exact hts t ht

theorem Away.start (h : Away v posts n₀ n) {o : Operation} (ho : o.auth ≠ some v)
    (hposts : ∀ author x, o.posts = some (author, x) → posts author x) :
    Away v posts n₀ (n.start o) := by
  refine h.issue fun t ht => ?_
  obtain ⟨k, hk, rfl⟩ := List.mem_map.mp ht
  exact ⟨(Operation.auth_calls hk).symm ▸ ho, Operation.foreign hk ho hposts⟩

theorem Away.step (h : Away v posts n₀ n) {e : Event} (he : e.Without v posts)
    (hstep : n.step e = some n') : Away v posts n₀ n' := by
  cases e with
  | act o =>
    obtain ⟨-, -, rfl⟩ := step_act hstep
    exact h.start he.1 he.2
  | answer i r => exact h.answer hstep
  | fetchCartoon | fetchFeedBack =>
    cases hstep
    exact ⟨h.chosen, h.flight, h.kept, h.gained⟩

/-! ## Arrivals -/

end App

/-- The call will bring the new cartoon of the author into the feed of the account. -/
def Call.Brings (v author : Uid) (x : DocID) (k : Call) : Prop :=
  match k.request with
  | .write w _ => w = .mark true ⟨.userFeed v, x⟩
  | .getDocuments q (.updateMainUserAfterCartoon uid cartoonID) =>
    q = { collection := .userFan author } ∧ uid = author ∧ cartoonID = x
  | _ => False

theorem Operation.brings {o : Operation} {author : Uid} {x : DocID}
    (ho : o.posts = some (author, x)) (v : Uid) : ∃ k ∈ o.calls, k.Brings v author x := by
  unfold Operation.posts at ho
  split at ho
  next me u =>
    obtain ⟨rfl, rfl⟩ := Prod.mk.inj (Option.some.inj ho)
    exact ⟨_, List.mem_cons_of_mem _ (List.mem_singleton_self _), rfl, rfl, rfl⟩
  next => cases ho

/-- An answer without error: the cartoon is there, or the loop brings it. -/
theorem Call.Brings.exec {v author : Uid} {x : DocID} {k : Call} (h : k.Brings v author x)
    {r : Reply} (hr : r.ok = true) {s : Firestore}
    (hfan : v = author ∨ s.has ⟨.userFan author, v⟩ = true) :
    Store.has (k.exec r s).1 ⟨.userFeed v, x⟩ = true ∨
      ∃ k' ∈ (k.exec r s).2.calls, k'.Brings v author x := by
  obtain ⟨auth, request⟩ := k
  cases request with
  | write w c =>
    obtain rfl : w = .mark true ⟨.userFeed v, x⟩ := h
    left
    simp only [Call.exec, if_pos hr]
    rw [Store.has_apply_mark, if_pos rfl]
  | getDocuments q callback =>
    cases callback with
    | updateMainUserAfterFan uid didFan => cases h
    | updateMainUserAfterCartoon uid cartoonID =>
      obtain ⟨rfl, rfl, rfl⟩ := h
      right
      simp only [Call.exec, if_pos hr]
      rcases hfan with rfl | hfan
      · exact ⟨_, List.mem_append_right _ (List.mem_singleton_self _), rfl⟩
      · obtain ⟨data, hdata⟩ := Option.isSome_iff_exists.mp hfan
        have hmem : (v, data) ∈ s.documents (.userFan uid) := Store.mem_documents.mpr hdata
        exact ⟨_, List.mem_append_left _ (List.mem_map_of_mem hmem), rfl⟩
  | getDocument ref callback => cases h

namespace App

variable {v : Uid} {posts : Uid → DocID → Prop} {n₀ n n' : App} {author : Uid} {x : DocID}

/-- The cartoon is in the feed of the account, or on its way. -/
def Coming (v author : Uid) (x : DocID) (n : App) : Prop :=
  n.state.store.has ⟨.userFeed v, x⟩ = true ∨ ∃ t ∈ n.inflight, t.call.Brings v author x

theorem Coming.answer (h : Coming v author x n) (haway : Away v posts n₀ n)
    (hfan : n₀.state.store.has ⟨.userFan author, v⟩ = true) {i : Nat} {r : Reply}
    (hr : r.ok = true) (hstep : n.step (.answer i r) = some n') : Coming v author x n' := by
  obtain ⟨pre, t, post, hin, -, rfl⟩ := step_answer hstep
  have ht : t ∈ n.inflight := by rw [hin]; simp
  rcases h with hhas | ⟨t', ht', hbrings⟩
  · left
    rcases haway.feed_exec ht r x with hsame | ⟨hhas', -⟩
    · exact hsame.trans hhas
    · exact hhas'
  · rw [hin] at ht'
    rcases Lib.Flight.mem_answered
      ((t.call.exec r n.state.store).2.calls.map fun k => (⟨t.origin, k⟩ : Task)) ht' with rfl | ht'
    · rcases hbrings.exec hr (Or.inr ((haway.idol author).trans hfan)) with hhas | ⟨k, hk, hbrings⟩
      · exact Or.inl hhas
      · exact Or.inr ⟨⟨t'.origin, k⟩, List.mem_append_right _ (List.mem_map_of_mem hk), hbrings⟩
    · exact Or.inr ⟨t', ht', hbrings⟩

theorem Coming.step (h : Coming v author x n) (haway : Away v posts n₀ n)
    (hfan : n₀.state.store.has ⟨.userFan author, v⟩ = true) {e : Event} (he : e.succeeds = true)
    (hstep : n.step e = some n') : Coming v author x n' := by
  cases e with
  | act o =>
    obtain ⟨-, -, rfl⟩ := step_act hstep
    exact h.imp_right fun ⟨t, ht, hbrings⟩ => ⟨t, List.mem_append_left _ ht, hbrings⟩
  | answer i r => exact h.answer haway hfan he hstep
  | fetchCartoon | fetchFeedBack =>
    cases hstep
    exact h

/-- An upload of the run by an author whom the account is a fan of. -/
def NewFor (v : Uid) (n : App) (es : List Event) (x : DocID) : Prop :=
  ∃ author, (∃ o, .act o ∈ es ∧ o.posts = some (author, x)) ∧
    n.state.store.has ⟨.userFan author, v⟩ = true

theorem away_run {es : List Event} (hquiet : n.Quiet) (hrun : run App.step n es = some n')
    (haway : ∀ e ∈ es, e.Without v posts) : Away v posts n n' := by
  have hstep : ∀ (m : App) e m', Away v posts n m → e.Without v posts → m.step e = some m' →
      Away v posts n m' := fun _ _ _ h he hstep => h.step he hstep
  exact run_inv_of_forall hstep haway (.refl hquiet) hrun

/-- A new cartoon has come when all calls are answered, and none has failed. -/
theorem arrived {es : List Event} (hquiet : n.Quiet) (hrun : run App.step n es = some n')
    (haway : ∀ e ∈ es, e.Without v posts) (hquiet' : n'.Quiet)
    (hsucceeds : ∀ e ∈ es, e.succeeds = true) (hnew : NewFor v n es x) :
    n'.state.store.has ⟨.userFeed v, x⟩ = true := by
  obtain ⟨author, ⟨o, ho, hposts⟩, hfan⟩ := hnew
  obtain ⟨es₁, es₂, rfl⟩ := List.append_of_mem ho
  rw [Lib.run_append] at hrun
  obtain ⟨n₁, hrun₁, hrun₂⟩ := Option.bind_eq_some_iff.mp hrun
  obtain ⟨n₂, hstep, hrun₂⟩ := Lib.run_cons hrun₂
  have haway₁ : Away v posts n n₁ :=
    away_run hquiet hrun₁ fun e he => haway e (List.mem_append_left _ he)
  have haway₂ := haway₁.step (haway (.act o) (by simp)) hstep
  obtain ⟨-, -, rfl⟩ := step_act hstep
  have hcoming : Coming v author x (n₁.start o) := by
    obtain ⟨k, hk, hbrings⟩ := Operation.brings hposts v
    exact Or.inr ⟨⟨o, k⟩, List.mem_append_right _ (List.mem_map_of_mem hk), hbrings⟩
  -- from here on the cartoon is on its way or there, whatever happens
  have hstep : ∀ (m : App) e m', Away v posts n m ∧ Coming v author x m →
      e.Without v posts ∧ e.succeeds = true → m.step e = some m' →
      Away v posts n m' ∧ Coming v author x m' :=
    fun _ _ _ h he hstep => ⟨h.1.step he.1 hstep, h.2.step h.1 hfan he.2 hstep⟩
  have hrest : ∀ e ∈ es₂, e.Without v posts ∧ e.succeeds = true := by
    intro e he
    have hmem : e ∈ es₁ ++ .act o :: es₂ :=
      List.mem_append_right _ (List.mem_cons_of_mem _ he)
    exact ⟨haway e hmem, hsucceeds e hmem⟩
  rcases (run_inv_of_forall hstep hrest ⟨haway₂, hcoming⟩ hrun₂).2 with hhas | ⟨t, ht, -⟩
  · exact hhas
  · rw [hquiet'] at ht
    cases ht

/-- An account does nothing in a run, from a moment on at which no call is in flight. Then,
whichever calls of the others fail, its stars, its likes and its places among the fans of
others are as before; its feed has lost nothing, and gained only new cartoons of authors
it is a fan of. It has gained all of these when nothing is in flight and no call has
failed. -/
theorem feed_away {es : List Event} (hquiet : n.Quiet) (hrun : run App.step n es = some n')
    (haway : ∀ o, .act o ∈ es → o.auth ≠ some v) :
    (∀ ref, Chosen v ref → n'.state.store.lookup ref = n.state.store.lookup ref) ∧
    (∀ x, n.state.store.has ⟨.userFeed v, x⟩ = true →
      n'.state.store.has ⟨.userFeed v, x⟩ = true) ∧
    (∀ x, n'.state.store.has ⟨.userFeed v, x⟩ = true →
      n.state.store.has ⟨.userFeed v, x⟩ = true ∨ NewFor v n es x) ∧
    (n'.Quiet → (∀ e ∈ es, e.succeeds = true) → ∀ x, NewFor v n es x →
      n'.state.store.has ⟨.userFeed v, x⟩ = true) := by
  have hes : ∀ e ∈ es,
      e.Without v fun author x => ∃ o, .act o ∈ es ∧ o.posts = some (author, x) := by
    intro e he
    cases e with
    | act o => exact ⟨haway o he, fun _ _ hposts => ⟨o, he, hposts⟩⟩
    | answer | fetchCartoon | fetchFeedBack => trivial
  have haway := away_run hquiet hrun hes
  exact ⟨haway.chosen, haway.kept, haway.gained, fun hquiet' hsucceeds x hnew =>
    arrived hquiet hrun hes hquiet' hsucceeds hnew⟩

/-- The reader begins to follow the author. -/
def newFan : List Event :=
  let reader := User.init (.ofList [("uid", .string "reader")])
  let author := User.init (.ofList [("uid", .string "author")])
  [.act (.action (.didTapButton (some "reader") (some reader) 0 author)),
   success 0, success 0, success 0, success 0]

/-- The author uploads a cartoon, follows somebody else and likes the own cartoon. -/
def busyDay : List Event :=
  let author := User.init (.ofList [("uid", .string "author")])
  let other := User.init (.ofList [("uid", .string "other")])
  [uploadByAuthor "c", .act (.action (.didTapButton (some "author") (some author) 0 other)),
   success 1, success 0, success 0, read "c",
   .act (.action (.likeCartoon (some "author") (posted "c") author)),
   success 0, success 0, success 0, success 0, success 0, success 0, success 0, success 0]

theorem feed_away_busyDay : ∃ n n', run App.step (opened ∅) newFan = some n ∧
    run App.step n busyDay = some n' ∧ n'.state.store.has ⟨.userFeed "reader", "c"⟩ = true ∧
    n'.state.store.lookup ⟨.userStar "reader", "author"⟩ =
      n.state.store.lookup ⟨.userStar "reader", "author"⟩ := by
  let n := (run step (opened ∅) newFan).get (by decide)
  let n' := (run step n busyDay).get (by decide)
  have hrun : run App.step n busyDay = some n' := (Option.some_get _).symm
  have hquiet : n.Quiet := by decide
  have hquiet' : n'.Quiet := by decide
  have haway : ∀ o, .act o ∈ busyDay → o.auth ≠ some "reader" := by
    intro o ho
    simp only [busyDay, uploadByAuthor, success, read, List.mem_cons, List.not_mem_nil, or_false,
      Event.act.injEq, reduceCtorEq, false_or] at ho
    rcases ho with rfl | rfl | rfl <;> decide
  obtain ⟨hchosen, -, -, harrived⟩ := feed_away hquiet hrun haway
  refine ⟨n, n', (Option.some_get _).symm, hrun, ?_, hchosen _ rfl⟩
  exact harrived hquiet' (by decide) "c"
    ⟨"author", ⟨_, List.mem_cons_self .., rfl⟩, by decide⟩

end App

end Toontagram
