import Toontagram.Document.References

/-!
# Deleted for good

`deleteCartoon` deletes the document of the cartoon and nothing else. No later write brings
the document back: an update of a document that is not there does nothing, and an upload
draws a new identifier. And what the feeds had of the cartoon when the last call was
answered they keep for ever: the loops of a follow and an unfollow go through the cartoons that
a query finds, and it finds no deleted ones.
-/

namespace Toontagram

open Lib (DocWrite Store run run_inv)

/-- The call and its closures leave what the feeds have of the cartoon, as long as it is
not stored. -/
def Call.SparesFeeds (x : DocID) (k : Call) : Prop :=
  match k.request with
  | .write w _ => ∀ v, w.ref ≠ ⟨.userFeed v, x⟩
  | .getDocuments q (.updateMainUserAfterFan _ _) => q.collection = .cartoon
  | .getDocuments _ (.updateMainUserAfterCartoon _ cartoonID) => cartoonID ≠ x
  | .getDocument _ _ => True

/-- What a query of cartoons finds is stored. -/
theorem Query.has_of_cartoon {q : Query} (hq : q.collection = .cartoon) {s : Firestore}
    {doc : DocID × Dictionary} (hdoc : doc ∈ q.documents s) : s.has ⟨.cartoon, doc.1⟩ = true := by
  have hmem : doc ∈ s.documents q.collection := by
    unfold Query.documents at hdoc
    split at hdoc
    next => exact hdoc
    next => exact List.mem_of_mem_filter hdoc
  rw [hq] at hmem
  rw [Store.has, Store.mem_documents.mp hmem]
  rfl

/-- The calls of a completion go into no feed, or query for cartoons. -/
theorem Completion.sparesFeeds {c : Completion} {auth : Option Uid} {m : Moment} {k : Call}
    (hk : k ∈ (c.run auth m).calls) (x : DocID) : k.SparesFeeds x := by
  cases c with
  | screen c =>
    rcases ScreenCompletion.mem_run hk with ⟨toUid, id, data, rfl⟩ | ⟨author, uid, didFan, rfl⟩
    · intro v h
      cases h
    · rfl
  | fanUsers | antiFanUser | likeCartoon | unLikeCartoon =>
    obtain rfl := List.mem_singleton.mp hk
    intro v h
    cases h

/-- As long as the cartoon is not stored, no closure goes back on it. -/
theorem Call.SparesFeeds.exec {x : DocID} {k k' : Call} (h : k.SparesFeeds x) {r : Reply}
    {s : Firestore} (hs : s.has ⟨.cartoon, x⟩ = false) (hk' : k' ∈ (k.exec r s).2.calls) :
    k'.SparesFeeds x := by
  obtain ⟨auth, request⟩ := k
  cases request with
  | write w c => exact Completion.sparesFeeds hk' x
  | getDocuments q callback =>
    simp only [Call.exec] at hk'
    split at hk'
    next =>
      cases callback with
      | updateMainUserAfterFan uid didFan =>
        obtain ⟨doc, hdoc, rfl⟩ := List.mem_map.mp hk'
        -- the loop goes over stored cartoons, and this one is not stored
        have hstored := Query.has_of_cartoon h hdoc
        have hne : doc.1 ≠ x := fun hx => by
          rw [hx, hs] at hstored
          cases hstored
        cases didFan <;> exact fun v hv => hne (congrArg Lib.DocRef.documentID hv)
      | updateMainUserAfterCartoon uid cartoonID =>
        have hne : cartoonID ≠ x := h
        rcases List.mem_append.mp hk' with hk' | hk'
        · obtain ⟨doc, -, rfl⟩ := List.mem_map.mp hk'
          exact fun v hv => hne (congrArg Lib.DocRef.documentID hv)
        · obtain rfl := List.mem_singleton.mp hk'
          exact fun v hv => hne (congrArg Lib.DocRef.documentID hv)
    next => cases hk'
  | getDocument ref callback =>
    simp only [Call.exec] at hk'
    split at hk'
    next =>
      rw [GetCallback.calls_run] at hk'
      cases hk'
    next => cases hk'

theorem Call.SparesFeeds.has_exec {x : DocID} {t : Task} (h : t.call.SparesFeeds x) (r : Reply)
    (s : Firestore) (v : Uid) :
    Store.has (t.call.exec r s).1 ⟨.userFeed v, x⟩ = s.has ⟨.userFeed v, x⟩ := by
  rcases App.answered_cases t r s with ⟨-, hstore⟩ | ⟨w, c, hreq, -, hstore⟩
  · rw [hstore]
  · rw [hstore]
    unfold Call.SparesFeeds at h
    rw [hreq] at h
    exact Store.has_apply_ne (h v)

/-- Only the upload of the cartoon itself brings it into feeds. -/
theorem Operation.sparesFeeds {o : Operation} {k : Call} (hk : k ∈ o.calls) {x : DocID}
    (hx : o.newRef ≠ some ⟨.cartoon, x⟩) : k.SparesFeeds x := by
  cases Operation.issues hk with
  | @fans a u =>
    intro hu
    apply hx
    rw [← hu]
    rfl
  | edited => trivial
  | _ =>
    intro v h
    cases h

namespace App

variable {x : DocID} {n n' : App}

/-- The cartoon has been uploaded and is not stored any more. -/
structure Gone (x : DocID) (n : App) : Prop where
  sound : n.Sound
  uploaded : ∃ e ∈ n.state.log, Write.sets ⟨.cartoon, x⟩ e.write = true
  absent : n.state.store.has ⟨.cartoon, x⟩ = false

/-- The identifier is not drawn again. -/
theorem Sound.newRef_ne (h : n.Sound)
    (huploaded : ∃ e ∈ n.state.log, Write.sets ⟨.cartoon, x⟩ e.write = true) {o : Operation}
    (hfresh : n.fresh o = true) : o.newRef ≠ some ⟨.cartoon, x⟩ := by
  intro ho
  obtain ⟨e, he, hsets⟩ := huploaded
  have hnone := (Nat.add_eq_zero_iff.mp (h.count_fresh rfl ho hfresh)).2
  exact List.countP_eq_zero.mp hnone e he hsets

/-- A document that is there after an answer was there before, or has just been set. -/
theorem has_exec_cases {t : Task} {r : Reply} {s : Firestore} {ref : DocRef}
    (h : Store.has (t.call.exec r s).1 ref = true) :
    s.has ref = true ∨ ∃ e ∈ t.logged r, Write.sets ref e.write = true := by
  rcases answered_cases t r s with ⟨-, hstore⟩ | ⟨w, c, -, hlog, hstore⟩
  · rw [hstore] at h
    exact Or.inl h
  · rw [hstore, Store.has_apply, DocWrite.leavesAt] at h
    rw [hlog]
    by_cases href : w.ref = ref
    · cases w with
      | setData r data => exact Or.inr ⟨_, List.mem_singleton_self _, decide_eq_true href⟩
      -- an update needs a document to be there
      | updateData r fields =>
        rw [if_pos href] at h
        exact Or.inl h
      | delete r =>
        rw [if_pos href] at h
        cases h
    · rw [if_neg href] at h
      exact Or.inl h

theorem logged_sets {t : Task} {r : Reply} {e : Entry} (he : e ∈ t.logged r) {ref : DocRef}
    (hsets : Write.sets ref e.write = true) : t.call.sets ref = true := by
  rcases answered_cases t r ∅ with ⟨hlog, -⟩ | ⟨w, c, hreq, hlog, -⟩
  · rw [hlog] at he
    cases he
  · rw [hlog] at he
    rw [List.mem_singleton.mp he] at hsets
    rw [Call.sets, hreq]
    exact hsets

theorem Gone.step (h : Gone x n) {e : Event} (hstep : n.step e = some n') : Gone x n' := by
  have hsound := h.sound.step hstep
  cases e with
  | act o =>
    obtain ⟨-, -, rfl⟩ := step_act hstep
    exact ⟨hsound, h.uploaded, h.absent⟩
  | answer i r =>
    obtain ⟨pre, t, post, hin, -, rfl⟩ := step_answer hstep
    obtain ⟨e, he, hsets⟩ := h.uploaded
    refine ⟨hsound, ⟨e, List.mem_append_left _ he, hsets⟩, Bool.eq_false_iff.mpr fun hhas => ?_⟩
    rcases has_exec_cases hhas with hold | ⟨e, he, hsets⟩
    · rw [h.absent] at hold
      cases hold
    · have hnot := h.sound.not_sets rfl h.uploaded t (by rw [hin]; simp)
      rw [logged_sets he hsets] at hnot
      cases hnot
  | fetchCartoon | fetchFeedBack =>
    cases hstep
    exact ⟨hsound, h.uploaded, h.absent⟩

/-- The cartoon is gone, and the feeds have of it what `feed` says. -/
structure Frozen (x : DocID) (feed : Uid → Bool) (n : App) : Prop where
  gone : Gone x n
  flight : ∀ t ∈ n.inflight, t.call.SparesFeeds x
  feeds : ∀ v, n.state.store.has ⟨.userFeed v, x⟩ = feed v

theorem Frozen.act {feed : Uid → Bool} (h : Frozen x feed n) {o : Operation}
    (hfresh : n.fresh o = true) : ∀ t ∈ (n.start o).inflight, t.call.SparesFeeds x := by
  intro t ht
  rcases mem_start ht with ht | ⟨k, hk, rfl⟩
  · exact h.flight t ht
  · exact Operation.sparesFeeds hk (h.gone.sound.newRef_ne h.gone.uploaded hfresh)

theorem Frozen.step {feed : Uid → Bool} (h : Frozen x feed n) {e : Event}
    (hstep : n.step e = some n') : Frozen x feed n' := by
  have hgone := h.gone.step hstep
  cases e with
  | act o =>
    obtain ⟨-, hfresh, rfl⟩ := step_act hstep
    exact ⟨hgone, h.act hfresh, h.feeds⟩
  | answer i r =>
    obtain ⟨pre, t, post, hin, -, rfl⟩ := step_answer hstep
    have ht : t.call.SparesFeeds x := h.flight t (by rw [hin]; simp)
    refine ⟨hgone, fun t' ht' => ?_, fun v => (ht.has_exec r _ v).trans (h.feeds v)⟩
    rcases mem_answered hin ht' with ht' | ⟨k, hk, rfl⟩
    · exact h.flight t' ht'
    · exact ht.exec h.gone.absent hk
  | fetchCartoon | fetchFeedBack =>
    cases hstep
    exact ⟨hgone, h.flight, h.feeds⟩

/-- A cartoon that was stored and is not any more stays deleted whatever is done from then
on; and from the first moment at which nothing is in flight, no feed gets or loses it. -/
theorem deleted_for_good {es es' es'' : List Event} {n₁ : App}
    (h₁ : run step (opened ∅) es = some n₁)
    (hstored : n₁.state.store.has ⟨.cartoon, x⟩ = true) (h : run step n₁ es' = some n)
    (hgone : n.state.store.has ⟨.cartoon, x⟩ = false) (h' : run step n es'' = some n') :
    n'.state.store.has ⟨.cartoon, x⟩ = false ∧
    (n.Quiet → ∀ v,
      n'.state.store.has ⟨.userFeed v, x⟩ = n.state.store.has ⟨.userFeed v, x⟩) := by
  have huploaded : ∃ e ∈ n.state.log, Write.sets ⟨.cartoon, x⟩ e.write = true := by
    obtain ⟨e, he, hsets⟩ := (sound_run h₁).set_of_has hstored
    have hlog : n₁.state.log <+: n.state.log :=
      run_inv (fun _ _ _ => log_grows) es' List.prefix_rfl h
    exact ⟨e, hlog.subset he, hsets⟩
  have hstart : Gone x n := ⟨run_inv (fun _ _ _ h => h.step) es' (sound_run h₁) h, huploaded, hgone⟩
  refine ⟨(run_inv (fun _ _ _ h => Gone.step h) es'' hstart h').absent, fun hquiet v => ?_⟩
  have hfrozen : Frozen x (fun v => n.state.store.has ⟨.userFeed v, x⟩) n := by
    refine ⟨hstart, fun t ht => ?_, fun _ => rfl⟩
    rw [hquiet] at ht
    cases ht
  exact (run_inv (fun _ _ _ h => Frozen.step h) es'' hfrozen h').feeds v

/-- The author uploads another cartoon while the reader begins to follow. -/
def secondThoughts : List Event :=
  let reader := User.init (.ofList [("uid", .string "reader")])
  let author := User.init (.ofList [("uid", .string "author")])
  [uploadByAuthor "d", .act (.action (.didTapButton (some "reader") (some reader) 0 author)),
   success 2, success 0, success 1, success 2, success 0, success 0, success 0, success 0,
   success 0]

theorem deleted_for_good_withdrawal : ∃ n n', run step (opened ∅) withdrawal = some n ∧
    run step n secondThoughts = some n' ∧ n'.state.store.has ⟨.userFeed "reader", "d"⟩ = true ∧
    n'.state.store.has ⟨.cartoon, "c"⟩ = false ∧
    n'.state.store.has ⟨.userFeed "author", "c"⟩ = true ∧
    n'.state.store.has ⟨.userFeed "reader", "c"⟩ = false := by
  let n₁ := (run step (opened ∅) (withdrawal.take 4)).get (by decide)
  let n := (run step n₁ (withdrawal.drop 4)).get (by decide)
  let n' := (run step n secondThoughts).get (by decide)
  have h₁ : run step (opened ∅) (withdrawal.take 4) = some n₁ := (Option.some_get _).symm
  have h : run step n₁ (withdrawal.drop 4) = some n := (Option.some_get _).symm
  have h' : run step n secondThoughts = some n' := (Option.some_get _).symm
  obtain ⟨hgone, hfeeds⟩ := deleted_for_good (x := "c") h₁ (by decide) h (by decide) h'
  have hquiet : n.Quiet := by decide
  refine ⟨n, n', ?_, h', by decide, hgone, ?_, ?_⟩
  · rw [← List.take_append_drop 4 withdrawal, Lib.run_append, h₁]
    exact h
  · rw [hfeeds hquiet "author"]
    decide
  · rw [hfeeds hquiet "reader"]
    decide

end App

end Toontagram
