import Toontagram.Lib.Flight
import Toontagram.Lib.LiveQuery
import Toontagram.Lib.Run
import Toontagram.Api.Services
import Toontagram.Api.TimeOrder

/-!
# The comments of a cartoon

`CommentService.swift`: any number of clients send comments, and a screen
listens. `fetchComment` captures one list for all calls of its listener; every
snapshot appends the documents that its `documentChanges` report as added, and
hands the list over.

The documents are what the writes of `uploadComment` leave, each answered at any
time or with an error. A snapshot is taken at any moment, so any number of new
comments may come with it. `documentChanges` is the difference between the
results of two snapshots. A comment that is stored is never written again, so
only what is added matters; the closure looks at nothing else.

- `comments_complete`: nothing is lost and nothing is shown twice.
- `newestFirst_iff`: the lists are in the order of the query exactly as long as
  no comment comes that is newer than one the screen has.
-/

namespace Toontagram

open Lib (Flight Store added append_added_perm mem_added pairwise_append_iff run run_iff_along
  run_inv Along)

/-- What a listener has captured: `comments`, and the result of the query its
last snapshot has shown. -/
structure Listener where
  comments : List Comment
  result : List (DocID × Dictionary)

/-- The comments of one cartoon: the store with the calls in flight, the
listener, and the lists it has handed over. -/
structure Thread where
  posts : Flight Firestore Call
  listener : Option Listener
  handed : List (List Comment)

inductive ThreadEvent where
  | uploadComment (auth : Option Uid) (comment : String) (user : User) (m : Moment)
      (completion : ScreenCompletion)
  | answer (i : Nat) (r : Reply)
  | fetchComment
  | snapshot (now : Timestamp)
  | error
deriving DecidableEq

namespace CommentService

/-- The documents that a snapshot reports as added. -/
def documentChanges (old new : List (DocID × Dictionary)) : List (DocID × Dictionary) :=
  added Prod.fst old new

/-- The closure of `fetchComment(forCartoon:completion:)`, for a snapshot with
the documents `result`. -/
def snapshot (l : Listener) (result : List (DocID × Dictionary)) (now : Timestamp) : Listener where
  comments := l.comments ++ (documentChanges l.result result).map fun doc => Comment.init now doc.2
  result := result

end CommentService

namespace Thread

/-- The result of the query of `fetchComment`. -/
def result (cartoonID : DocID) (t : Thread) : List (DocID × Dictionary) :=
  orderedByTime t.posts.state (.comments cartoonID)

/-- The comment of the cartoon that a call writes. -/
def postID (cartoonID : DocID) (k : Call) : Option DocID :=
  match k.request with
  | .write w _ => if w.ref.collection = .comments cartoonID then some w.ref.documentID else none
  | _ => none

/-- `addDocument` draws an identifier that no comment has or is getting. -/
def unused (cartoonID : DocID) (t : Thread) (id : DocID) : Bool :=
  !t.posts.state.has ⟨.comments cartoonID, id⟩ &&
    t.posts.inflight.all fun k => postID cartoonID k != some id

/-- The effect of a call, and what its closure issues. -/
def exec (k : Call) (r : Reply) (s : Firestore) : Firestore × List Call :=
  ((k.exec r s).1, (k.exec r s).2.calls)

/-- One event. With an error the closure hands over what it has. -/
def step (cartoonID : DocID) (t : Thread) : ThreadEvent → Option Thread
  | .uploadComment auth comment user m completion =>
    if t.unused cartoonID m.autoID then
      let calls := CommentService.uploadComment auth comment cartoonID user m completion
      some { t with posts := t.posts.issue calls }
    else none
  | .answer i r => (t.posts.answer exec i r).map fun posts => { t with posts := posts }
  | .fetchComment =>
    match t.listener with
    | none => some { t with listener := some ⟨[], []⟩ }
    | some _ => none
  | .snapshot now =>
    t.listener.map fun l =>
      let l := CommentService.snapshot l (t.result cartoonID) now
      { t with listener := some l, handed := t.handed ++ [l.comments] }
  | .error => t.listener.map fun l => { t with handed := t.handed ++ [l.comments] }

/-- Nobody has commented or listens yet. -/
def opened : Thread := ⟨⟨∅, []⟩, none, []⟩

variable {cartoonID : DocID} {t t' : Thread}

/-! ## What one step does -/

/-- A comment is sent. -/
theorem uploadComment_cases {auth : Option Uid} {comment : String} {user : User} {m : Moment}
    {completion : ScreenCompletion}
    (hstep : t.step cartoonID (.uploadComment auth comment user m completion) = some t') :
    t.unused cartoonID m.autoID = true ∧
      t' = { t with
        posts := t.posts.issue
          (CommentService.uploadComment auth comment cartoonID user m completion) } := by
  obtain ⟨hunused, hstep⟩ := Option.ite_none_right_eq_some.mp hstep
  exact ⟨hunused, (Option.some.inj hstep).symm⟩

/-- The listener is added. -/
theorem fetchComment_cases (hstep : t.step cartoonID .fetchComment = some t') :
    t.listener = none ∧ t' = { t with listener := some ⟨[], []⟩ } := by
  simp only [step] at hstep
  split at hstep
  next hnone => exact ⟨hnone, (Option.some.inj hstep).symm⟩
  next => cases hstep

/-! ## The writes of comments -/

/-- No closure writes a comment. -/
theorem postID_spawned {k k' : Call} {r : Reply} {s : Firestore}
    (hk' : k' ∈ (k.exec r s).2.calls) : postID cartoonID k' = none := by
  cases Call.spawned_exec hk' with
  | feed b | fan b | likes b => cases b <;> rfl
  | feedback | cartoons => rfl

/-- A call leaves the comments alone that it does not write. -/
theorem lookup_exec {k : Call} {id : DocID} (r : Reply) (s : Firestore)
    (h : postID cartoonID k ≠ some id) :
    (k.exec r s).1.lookup ⟨.comments cartoonID, id⟩ = s.lookup ⟨.comments cartoonID, id⟩ := by
  obtain ⟨auth, request⟩ := k
  cases request with
  | write w c =>
    simp only [Call.exec]
    split
    next =>
      refine Store.lookup_apply_ne fun href => h ?_
      simp only [postID, href, if_pos]
    next => rfl
  | getDocuments q c => rfl
  | getDocument ref c => rfl

/-- A comment that is sent: it is new, and it has a time. -/
structure Post (cartoonID : DocID) (s : Firestore) (k : Call) (id : DocID) : Prop where
  set : ∃ data c, k.request = .write (.setData ⟨.comments cartoonID, id⟩ data) c ∧
    (timeOf (id, data)).isSome = true
  new : s.has ⟨.comments cartoonID, id⟩ = false

/-- What holds in every run: the comments in flight are new and different, all
comments have a time, and the listener has what its last snapshot has shown, of
which nothing has changed. -/
structure Sound (cartoonID : DocID) (t : Thread) : Prop where
  flight : ∀ k ∈ t.posts.inflight, ∀ id, postID cartoonID k = some id →
    Post cartoonID t.posts.state k id
  once : (t.posts.inflight.filterMap (postID cartoonID)).Nodup
  kept : ∀ l, t.listener = some l → ∀ id data, (id, data) ∈ l.result →
    t.posts.state.lookup ⟨.comments cartoonID, id⟩ = some data ∧
      (timeOf (id, data)).isSome = true
  nodup : ∀ l, t.listener = some l → (l.result.map Prod.fst).Nodup
  perm : ∀ l, t.listener = some l → ∀ now,
    l.comments.Perm (l.result.map fun doc => Comment.init now doc.2)

theorem Sound.opened : opened.Sound cartoonID where
  flight := fun _ hk => nomatch hk
  once := List.nodup_nil
  kept := fun _ hl => nomatch hl
  nodup := fun _ hl => nomatch hl
  perm := fun _ hl => nomatch hl

theorem Sound.uploadComment (h : t.Sound cartoonID) {auth : Option Uid} {comment : String}
    {user : User} {m : Moment} {completion : ScreenCompletion}
    (hstep : t.step cartoonID (.uploadComment auth comment user m completion) = some t') :
    t'.Sound cartoonID := by
  obtain ⟨hunused, rfl⟩ := uploadComment_cases hstep
  rw [unused, Bool.and_eq_true, List.all_eq_true] at hunused
  obtain ⟨hnew, hother⟩ := hunused
  refine ⟨fun k hk id hid => ?_, ?_, h.kept, h.nodup, h.perm⟩
  · rcases List.mem_append.mp hk with hk | hk
    · exact h.flight k hk id hid
    · obtain rfl := List.mem_singleton.mp hk
      obtain rfl : m.autoID = id := by simpa [postID, Lib.DocWrite.ref] using hid
      exact ⟨⟨_, _, rfl, rfl⟩, (Bool.not_eq_true' _).mp hnew⟩
  · have hpost : (CommentService.uploadComment auth comment cartoonID user m
        completion).filterMap (postID cartoonID) = [m.autoID] := by
      simp [CommentService.uploadComment, postID, Lib.DocWrite.ref]
    simp only [Flight.issue]
    rw [List.filterMap_append, hpost, List.nodup_append]
    refine ⟨h.once, List.nodup_singleton _, ?_⟩
    rintro id hid id' hid' rfl
    obtain ⟨k, hk, hpostID⟩ := List.mem_filterMap.mp hid
    have hne := hother k hk
    rw [hpostID, List.mem_singleton.mp hid'] at hne
    simp at hne

/-- An answer leaves the comments alone that nobody is sending. -/
theorem Sound.lookup_answer (h : t.Sound cartoonID) {k : Call} (hk : k ∈ t.posts.inflight)
    (r : Reply) {id : DocID} {data : Dictionary}
    (hdata : t.posts.state.lookup ⟨.comments cartoonID, id⟩ = some data) :
    (k.exec r t.posts.state).1.lookup ⟨.comments cartoonID, id⟩ = some data := by
  rw [lookup_exec r t.posts.state fun hid => ?_, hdata]
  have hnew := (h.flight k hk id hid).new
  rw [Store.has, hdata] at hnew
  cases hnew

theorem Sound.answer (h : t.Sound cartoonID) {i : Nat} {r : Reply}
    (hstep : t.step cartoonID (.answer i r) = some t') : t'.Sound cartoonID := by
  obtain ⟨posts, hposts, rfl⟩ := Option.map_eq_some_iff.mp hstep
  obtain ⟨pre, k, post, hin, -, rfl⟩ := Flight.answer_cases hposts
  have hk : k ∈ t.posts.inflight := by
    rw [hin]
    simp
  have hspawned : (exec k r t.posts.state).2.filterMap (postID cartoonID) = [] :=
    List.filterMap_eq_nil_iff.mpr fun k' hk' => postID_spawned hk'
  have honce := h.once
  rw [hin, List.filterMap_append] at honce
  refine ⟨fun k' hk' id hid => ?_, ?_, fun l hl id data hdoc => ?_, h.nodup, h.perm⟩
  · rcases List.mem_append.mp hk' with hk' | hk'
    · -- another call in flight sends another comment
      have hk'in : k' ∈ t.posts.inflight := hin ▸ Flight.mem_of_kept k hk'
      obtain ⟨hset, hnew⟩ := h.flight k' hk'in id hid
      refine ⟨hset, ?_⟩
      rw [Store.has, exec, lookup_exec r t.posts.state fun hsame => ?_]
      · exact hnew
      · rw [List.filterMap_cons_some hsame] at honce
        refine (List.nodup_cons.mp (List.nodup_middle.mp honce)).1 ?_
        rw [← List.filterMap_append]
        exact List.mem_filterMap.mpr ⟨k', hk', hid⟩
    · rw [postID_spawned hk'] at hid
      cases hid
  · simp only [List.filterMap_append, hspawned, List.append_nil]
    refine honce.sublist (List.Sublist.append_left ?_ _)
    exact (List.sublist_cons_self k post).filterMap _
  · obtain ⟨hdata, htime⟩ := h.kept l hl id data hdoc
    exact ⟨h.lookup_answer hk r hdata, htime⟩

theorem Sound.snapshot (h : t.Sound cartoonID) {now : Timestamp}
    (hstep : t.step cartoonID (.snapshot now) = some t') : t'.Sound cartoonID := by
  obtain ⟨l, hl, rfl⟩ := Option.map_eq_some_iff.mp hstep
  refine ⟨h.flight, h.once, ?_, ?_, ?_⟩
  · rintro l' hl' id data hdoc
    obtain rfl := Option.some.inj hl'
    exact mem_orderedByTime.mp hdoc
  · rintro l' hl'
    obtain rfl := Option.some.inj hl'
    exact nodup_orderedByTime _ _
  · rintro l' hl' now'
    obtain rfl := Option.some.inj hl'
    -- what is added is decoded now, the rest was before; with a time it is the same
    have hadded : (CommentService.documentChanges l.result (t.result cartoonID)).map
        (fun doc => Comment.init now doc.2) =
        (CommentService.documentChanges l.result (t.result cartoonID)).map
          fun doc => Comment.init now' doc.2 := by
      refine List.map_congr_left ?_
      rintro ⟨id, data⟩ hdoc
      obtain ⟨time, htime⟩ := Option.isSome_iff_exists.mp
        (mem_orderedByTime.mp (mem_added.mp hdoc).1).2
      exact Comment.init_timed htime now now'
    have hall : (l.result ++ CommentService.documentChanges l.result (t.result cartoonID)).Perm
        (t.result cartoonID) := by
      refine append_added_perm (h.nodup l hl) (nodup_orderedByTime _ _) ?_
      rintro ⟨id, data⟩ hdoc
      exact mem_orderedByTime.mpr (h.kept l hl id data hdoc)
    have hperm := hall.map fun doc => Comment.init now' doc.2
    rw [List.map_append] at hperm
    simp only [CommentService.snapshot, hadded]
    exact ((h.perm l hl now').append_right _).trans hperm

theorem Sound.step (h : t.Sound cartoonID) {e : ThreadEvent}
    (hstep : t.step cartoonID e = some t') : t'.Sound cartoonID := by
  cases e with
  | uploadComment => exact h.uploadComment hstep
  | answer i r => exact h.answer hstep
  | fetchComment =>
    obtain ⟨-, rfl⟩ := fetchComment_cases hstep
    refine ⟨h.flight, h.once, ?_, ?_, ?_⟩
    · rintro l hl id data hdoc
      obtain rfl := Option.some.inj hl
      cases hdoc
    · rintro l hl
      obtain rfl := Option.some.inj hl
      exact List.nodup_nil
    · rintro l hl now
      obtain rfl := Option.some.inj hl
      exact .refl _
  | snapshot now => exact h.snapshot hstep
  | error =>
    obtain ⟨l, hl, rfl⟩ := Option.map_eq_some_iff.mp hstep
    exact ⟨h.flight, h.once, h.kept, h.nodup, h.perm⟩

end Thread

/-- For any number of clients that send comments on a cartoon in any
interleaving, some of them in vain, and snapshots at any moments: every snapshot
hands over, in some order, exactly the comments of the query's current result. -/
theorem comments_complete {cartoonID : DocID} {es : List ThreadEvent} {t t' : Thread}
    {now : Timestamp} (hrun : run (Thread.step cartoonID) .opened es = some t)
    (hstep : t.step cartoonID (.snapshot now) = some t') :
    ∃ comments, t'.handed = t.handed ++ [comments] ∧
      comments.Perm ((t.result cartoonID).map fun doc => Comment.init now doc.2) := by
  have hsound : t.Sound cartoonID := run_inv (fun _ _ _ h => h.step) es .opened hrun
  have hsound' := hsound.step hstep
  obtain ⟨l, hl, rfl⟩ := Option.map_eq_some_iff.mp hstep
  exact ⟨_, rfl, hsound'.perm _ rfl now⟩

/-- The reader comments before the author listens, and the author after that. -/
def chat : List ThreadEvent :=
  [.uploadComment (some "reader") "first" (User.init .empty) ⟨"a", ⟨1, 0⟩⟩ .ignore,
    .answer 0 ⟨true, ⟨"", ⟨1, 0⟩⟩⟩, .fetchComment, .snapshot ⟨2, 0⟩,
    .uploadComment (some "author") "second" (User.init .empty) ⟨"b", ⟨3, 0⟩⟩ .ignore,
    .answer 0 ⟨true, ⟨"", ⟨3, 0⟩⟩⟩]

/-- `comments_complete` for the second snapshot. -/
theorem comments_complete_chat : ∃ t t' comments,
    run (Thread.step "c") .opened chat = some t ∧
    t.step "c" (.snapshot ⟨4, 0⟩) = some t' ∧ t'.handed = t.handed ++ [comments] ∧
    comments.Perm ((t.result "c").map fun doc => Comment.init ⟨4, 0⟩ doc.2) := by
  have hrun : run (Thread.step "c") .opened chat =
      some ((run (Thread.step "c") .opened chat).get (by decide)) := (Option.some_get _).symm
  have hstep : ((run (Thread.step "c") .opened chat).get (by decide)).step "c" (.snapshot ⟨4, 0⟩) =
      some ((((run (Thread.step "c") .opened chat).get (by decide)).step "c"
        (.snapshot ⟨4, 0⟩)).get (by decide)) := (Option.some_get _).symm
  obtain ⟨comments, hhanded, hperm⟩ := comments_complete hrun hstep
  exact ⟨_, _, comments, hrun, hstep, hhanded, hperm⟩

/-! ## The order of the lists -/

/-- Ordered by time, newest first, as the query is. -/
def NewestFirst (comments : List Comment) : Prop :=
  comments.Pairwise fun a b => b.time ≤ a.time

instance (comments : List Comment) : Decidable (NewestFirst comments) :=
  inferInstanceAs (Decidable (comments.Pairwise fun a b => b.time ≤ a.time))

namespace Thread

/-- No comment that a snapshot brings is newer than one the listener has. -/
def inTurn (cartoonID : DocID) (t : Thread) : ThreadEvent → Bool
  | .snapshot now =>
    match t.listener with
    | none => true
    | some l => l.comments.all fun a =>
        (CommentService.documentChanges l.result (t.result cartoonID)).all fun doc =>
          (Comment.init now doc.2).time ≤ a.time
  | _ => true

variable {cartoonID : DocID} {t t' : Thread}

/-- What is added comes in the order of the query. -/
theorem newestFirst_documentChanges (l : Listener) (now : Timestamp) :
    NewestFirst ((CommentService.documentChanges l.result (t.result cartoonID)).map
      fun doc => Comment.init now doc.2) := by
  rw [NewestFirst, List.pairwise_map]
  have hsub := Lib.added_sublist Prod.fst l.result (t.result cartoonID)
  refine ((pairwise_orderedByTime _ _).sublist hsub).imp_of_mem ?_
  rintro ⟨id, data⟩ ⟨id', data'⟩ hdoc hdoc' horder
  obtain ⟨time, htime⟩ := Option.isSome_iff_exists.mp
    (mem_orderedByTime.mp (hsub.subset hdoc)).2
  obtain ⟨time', htime'⟩ := Option.isSome_iff_exists.mp
    (mem_orderedByTime.mp (hsub.subset hdoc')).2
  have hle : time' ≤ time := horder time time' htime htime'
  have hdata : Dictionary.timestamp? data "time" = some time := htime
  have hdata' : Dictionary.timestamp? data' "time" = some time' := htime'
  simpa only [Comment.init, hdata, hdata', Option.getD_some] using hle

/-- What the listener has is what it has handed over last. -/
def Latest (t : Thread) : Prop :=
  ∀ l, t.listener = some l → l.comments = [] ∨ l.comments ∈ t.handed

theorem Latest.step (h : t.Latest) {e : ThreadEvent} (hstep : t.step cartoonID e = some t') :
    t'.Latest := by
  cases e with
  | uploadComment =>
    obtain ⟨-, rfl⟩ := uploadComment_cases hstep
    exact h
  | answer i r =>
    obtain ⟨posts, -, rfl⟩ := Option.map_eq_some_iff.mp hstep
    exact h
  | fetchComment =>
    obtain ⟨-, rfl⟩ := fetchComment_cases hstep
    rintro l hl
    obtain rfl := Option.some.inj hl
    exact Or.inl rfl
  | snapshot now =>
    obtain ⟨l, -, rfl⟩ := Option.map_eq_some_iff.mp hstep
    rintro l' hl'
    obtain rfl := Option.some.inj hl'
    exact Or.inr (List.mem_append_right _ (List.mem_singleton_self _))
  | error =>
    obtain ⟨l, hl, rfl⟩ := Option.map_eq_some_iff.mp hstep
    exact fun l' hl' => (h l' hl').imp_right (List.mem_append_left _)

/-- Every list handed over so far is in order. -/
def Ordered (t : Thread) : Prop := ∀ comments ∈ t.handed, NewestFirst comments

theorem Latest.ordered (h : t.Latest) (hordered : t.Ordered) {l : Listener}
    (hl : t.listener = some l) : NewestFirst l.comments := by
  rcases h l hl with hnil | hmem
  · rw [hnil]
    exact List.Pairwise.nil
  · exact hordered _ hmem

/-- The step lemma: a snapshot keeps the order exactly if what it adds is in
turn, and no list is ever taken back. -/
theorem ordered_step (h : t.Latest) {e : ThreadEvent} (hstep : t.step cartoonID e = some t') :
    t'.Ordered ↔ t.Ordered ∧ t.inTurn cartoonID e = true := by
  have hhand : ∀ comments, (∀ x ∈ t.handed ++ [comments], NewestFirst x) ↔
      t.Ordered ∧ NewestFirst comments := by
    intro comments
    simp only [List.mem_append, List.mem_singleton, or_imp, forall_and, forall_eq, Ordered]
  cases e with
  | uploadComment =>
    obtain ⟨-, rfl⟩ := uploadComment_cases hstep
    exact (and_iff_left rfl).symm
  | answer i r =>
    obtain ⟨posts, -, rfl⟩ := Option.map_eq_some_iff.mp hstep
    exact (and_iff_left rfl).symm
  | fetchComment =>
    obtain ⟨-, rfl⟩ := fetchComment_cases hstep
    exact (and_iff_left rfl).symm
  | snapshot now =>
    obtain ⟨l, hl, rfl⟩ := Option.map_eq_some_iff.mp hstep
    refine (hhand _).trans (and_congr_right fun hordered => ?_)
    rw [CommentService.snapshot, NewestFirst,
      pairwise_append_iff (h.ordered hordered hl) (newestFirst_documentChanges l now)]
    simp only [inTurn, hl, List.all_eq_true, decide_eq_true_eq, List.forall_mem_map]
  | error =>
    obtain ⟨l, hl, rfl⟩ := Option.map_eq_some_iff.mp hstep
    refine (hhand _).trans (and_congr_right fun hordered => ?_)
    exact iff_of_true (h.ordered hordered hl) rfl

end Thread

/-- For every run of clients that comment and snapshots at any moments: all lists
handed over are in the order of the query, newest first, if and only if no
snapshot of the run brings a comment that is newer than one the listener has. -/
theorem newestFirst_iff {cartoonID : DocID} {es : List ThreadEvent} {t : Thread}
    (hrun : run (Thread.step cartoonID) .opened es = some t) :
    (∀ comments ∈ t.handed, NewestFirst comments) ↔
      Along (Thread.step cartoonID) (fun t e => t.inTurn cartoonID e = true) .opened es := by
  have hiff := run_iff_along (P := Thread.Latest) (Q := Thread.Ordered)
    (fun _ _ _ h => h.step) (fun _ _ _ h => Thread.ordered_step h) es
    (s := Thread.opened) (fun _ hl => nomatch hl) hrun
  have hopened : Thread.opened.Ordered := fun _ hmem => nomatch hmem
  exact hiff.trans (and_iff_right hopened)

/-- The second comment comes after the first snapshot, and is handed over last. -/
theorem newestFirst_late : ∃ t,
    run (Thread.step "c") .opened (chat ++ [.snapshot ⟨4, 0⟩]) = some t ∧
      ¬ ∀ comments ∈ t.handed, NewestFirst comments :=
  ⟨(run (Thread.step "c") .opened (chat ++ [.snapshot ⟨4, 0⟩])).get (by decide),
    (Option.some_get _).symm, by decide⟩

/-- `newestFirst_iff` when both comments come with the first snapshot. -/
theorem newestFirst_iff_first : ∃ t,
    run (Thread.step "c") .opened (chat.eraseIdx 3 ++ [.snapshot ⟨4, 0⟩]) = some t ∧
      ∀ comments ∈ t.handed, NewestFirst comments := by
  have hrun : run (Thread.step "c") .opened (chat.eraseIdx 3 ++ [.snapshot ⟨4, 0⟩]) =
      some ((run (Thread.step "c") .opened (chat.eraseIdx 3 ++ [.snapshot ⟨4, 0⟩])).get
        (by decide)) := (Option.some_get _).symm
  exact ⟨_, hrun, (newestFirst_iff hrun).mpr (by decide)⟩

end Toontagram
