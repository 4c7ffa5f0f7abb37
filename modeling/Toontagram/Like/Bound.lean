import Toontagram.Document.Kept

/-!
# The number of likes stays in range

`like_eq_count_stale` (`Like/Counter.lean`) shows that the number of likes goes
wrong. How wrong it can get is the subject here, over the whole app: any number
of clients write numbers they computed from copies of any age, and any of the
writes may be late or fail.

A number that is written is one more or one less than that of a copy, and a copy
is read from the document. So the bound has to cover the log, the calls in
flight and the copies at once: `Bounded` is this, `Bounded.step` the step lemma.
`unLikeCartoon` keeps it only by its guard, which looks at the copy.
-/

namespace Toontagram

open Lib (run run_cons)

/-- A call of `likeCartoon` on the cartoon. -/
def App.Event.likes (id : DocID) : App.Event → Bool
  | .act (.action (.likeCartoon _ cartoon _)) => cartoon.cartoonId = id
  | _ => false

/-- The calls of `likeCartoon` on the cartoon among the events of a run. -/
def likeCalls (id : DocID) (es : List App.Event) : Nat := es.countP (App.Event.likes id)

/-- A number is at least zero and at most what `calls` has for the cartoon. -/
def InRange (calls : DocID → Nat) (id : DocID) (like : Int) : Prop :=
  0 ≤ like ∧ like ≤ calls id

theorem InRange.mono {calls calls' : DocID → Nat} {id : DocID} {like : Int}
    (h : InRange calls id like) (hle : calls id ≤ calls' id) : InRange calls' id like := by
  obtain ⟨hzero, hcalls⟩ := h
  exact ⟨hzero, by omega⟩

/-- One more than a copy, with one more call made. -/
theorem InRange.like {calls calls' : DocID → Nat} {id : DocID} {like : Int}
    (h : InRange calls id like) (hmore : calls' id = calls id + 1) :
    InRange calls' id (like + 1) := by
  obtain ⟨hzero, hcalls⟩ := h
  exact ⟨by omega, by omega⟩

/-- One less than a copy that the guard of `unLikeCartoon` lets pass. -/
theorem InRange.unLike {calls calls' : DocID → Nat} {id : DocID} {like : Int}
    (h : InRange calls id like) (hguard : like > 0) (hsame : calls' id = calls id) :
    InRange calls' id (like - 1) := by
  obtain ⟨-, hcalls⟩ := h
  exact ⟨by omega, by omega⟩

namespace Operation

/-- The number the operation writes, if it writes one, is in range. -/
def InRange (calls : DocID → Nat) : Operation → Prop
  | .action (.likeCartoon _ cartoon _) =>
    Toontagram.InRange calls cartoon.cartoonId (cartoon.like + 1)
  | .action (.unLikeCartoon _ cartoon) =>
    Toontagram.InRange calls cartoon.cartoonId (cartoon.like - 1)
  | _ => True

theorem InRange.mono {calls calls' : DocID → Nat} {o : Operation} (h : o.InRange calls)
    (hle : ∀ id, calls id ≤ calls' id) : o.InRange calls' := by
  cases o with
  | action a =>
    cases a with
    | likeCartoon _ cartoon _ => exact Toontagram.InRange.mono h (hle cartoon.cartoonId)
    | unLikeCartoon _ cartoon => exact Toontagram.InRange.mono h (hle cartoon.cartoonId)
    | didTapButton | uploadCartoon | editCartoon => trivial
  | loadComment | fan | unFan | deleteCartoon | editUserData | userRegister => trivial

end Operation

/-- What a write of a cartoon's number writes is in range. -/
theorem TopWrite.inRange {o : Operation} {w : Write} {id : DocID} {like : Int}
    {calls : DocID → Nat} (h : TopWrite o w) (hw : w.ref = ⟨.cartoon, id⟩)
    (ho : o.InRange calls) (hlike : o.like = some like) : InRange calls id like := by
  cases h with
  | upload u a =>
    cases hlike
    exact ⟨Int.le_refl 0, Int.natCast_nonneg _⟩
  | like a cartoon user =>
    cases hw
    cases hlike
    exact ho
  | unLike a cartoon =>
    cases hw
    cases hlike
    exact ho
  | edit | deleteCartoon | editUserData | userRegister => cases hlike

namespace App

variable {n n' : App} {calls : DocID → Nat}

/-- Every number that is held, on its way or accepted is in range. -/
structure Bounded (calls : DocID → Nat) (n : App) : Prop where
  sound : n.Sound
  cartoons : ∀ cartoon ∈ n.state.cartoons, InRange calls cartoon.cartoonId cartoon.like
  flight : ∀ t ∈ n.inflight, t.origin.InRange calls
  log : ∀ e ∈ n.state.log, e.origin.InRange calls

/-- The number of a stored cartoon is one that a call of the log has written. -/
theorem Bounded.stored (h : n.Bounded calls) {id : DocID} {data : Dictionary}
    (hdata : n.state.store.lookup ⟨.cartoon, id⟩ = some data) :
    ∃ like, data.int? "like" = some like ∧ InRange calls id like := by
  obtain ⟨like, hlast, hpart⟩ := (h.sound.cartoonFrom hdata).like
  have hfield : data "like" = some (.int like) := List.head_eq_of_cons_eq hpart
  refine ⟨like, by rw [Dictionary.int?, hfield], ?_⟩
  obtain ⟨e, he, habout⟩ := List.mem_filterMap.mp (List.mem_of_getLast? hlast)
  unfold Entry.about at habout
  split at habout
  next href => exact (h.sound.log e he (by rw [href]; rfl)).inRange href (h.log e he) habout
  next => cases habout

/-- So is the number of a cartoon that is decoded from the document. -/
theorem Bounded.decoded (h : n.Bounded calls) {id : DocID} {data : Dictionary}
    (hdata : n.state.store.lookup ⟨.cartoon, id⟩ = some data) (now : Timestamp) :
    InRange calls id (Cartoon.init now id data).like := by
  obtain ⟨like, hlike, hrange⟩ := h.stored hdata
  rw [Cartoon.init, hlike]
  exact hrange

/-- A screen's copy differs from one that was read in `didLike` only. -/
theorem Bounded.shown (h : n.Bounded calls) {cartoon : Cartoon}
    (hshows : n.showsCartoon cartoon = true) :
    InRange calls cartoon.cartoonId cartoon.like :=
  h.cartoons { cartoon with didLike := false } (List.contains_iff_mem.mp hshows)

/-- The copy was in range, so the number one more is, now that one more call is
made, and the number one less is if the guard has let the call pass. -/
theorem Bounded.started (h : n.Bounded calls) {o : Operation} (hshows : n.shows o = true)
    {calls' : DocID → Nat}
    (hcalls : ∀ id, calls' id = calls id + if Event.likes id (.act o) = true then 1 else 0)
    {k : Call} (hk : k ∈ o.calls) : o.InRange calls' := by
  cases Operation.issues hk with
  | @likeNumber a cartoon user | @likeMark a cartoon user =>
    have hmore : calls' cartoon.cartoonId = calls cartoon.cartoonId + 1 := by
      rw [hcalls cartoon.cartoonId, if_pos (by simp [Event.likes])]
    exact (h.shown hshows).like hmore
  | @unLikeNumber a cartoon hguard | @unLikeMark a cartoon hguard =>
    exact (h.shown hshows).unLike hguard (hcalls cartoon.cartoonId)
  | unfollow | follow | post | fans | edit | edited | comment | fan | unFan | deleteCartoon
    | editUserData | userRegister => trivial

/-- One event; it counts if it is a call of `likeCartoon`. -/
theorem Bounded.step (h : n.Bounded calls) {e : Event} (hstep : n.step e = some n')
    {calls' : DocID → Nat}
    (hcalls : ∀ id, calls' id = calls id + if e.likes id = true then 1 else 0) :
    n'.Bounded calls' := by
  have hmore : ∀ id, calls id ≤ calls' id := fun id => by
    rw [hcalls id]
    exact Nat.le_add_right _ _
  have hheld : ∀ cartoon ∈ n.state.cartoons, InRange calls' cartoon.cartoonId cartoon.like :=
    fun cartoon hc => (h.cartoons cartoon hc).mono (hmore _)
  have hflight : ∀ t ∈ n.inflight, t.origin.InRange calls' :=
    fun t ht => (h.flight t ht).mono hmore
  have hlog : ∀ e ∈ n.state.log, e.origin.InRange calls' := fun e he => (h.log e he).mono hmore
  have hsound := h.sound.step hstep
  cases e with
  | act o =>
    obtain ⟨hshows, -, rfl⟩ := step_act hstep
    refine ⟨hsound, hheld, fun t ht => ?_, hlog⟩
    rcases mem_start ht with ht | ⟨k, hk, rfl⟩
    · exact hflight t ht
    · exact h.started hshows hcalls hk
  | answer i r =>
    obtain ⟨pre, t, post, hin, -, rfl⟩ := step_answer hstep
    have ht : t.origin.InRange calls' := hflight t (by rw [hin]; simp)
    refine ⟨hsound, hheld, fun t' ht' => ?_, fun e he => ?_⟩
    · rcases mem_answered hin ht' with ht' | ⟨k, -, rfl⟩
      · exact hflight t' ht'
      · exact ht
    · rcases List.mem_append.mp he with he | he
      · exact hlog e he
      · -- the entry is about the call that is answered
        rcases answered_cases t r n.state.store with ⟨hlogged, -⟩ | ⟨w, c, -, hlogged, -⟩
        · rw [hlogged] at he
          cases he
        · rw [hlogged] at he
          rw [List.mem_singleton.mp he]
          exact ht
  | fetchCartoon id r =>
    cases hstep
    refine ⟨hsound, fun cartoon hc => ?_, hflight, hlog⟩
    rcases List.mem_append.mp hc with hc | hc
    · exact hheld cartoon hc
    · rw [Option.mem_toList, CartoonService.fetchCartoon] at hc
      split at hc
      next =>
        obtain ⟨data, hdata, rfl⟩ := Option.map_eq_some_iff.mp hc
        exact (h.decoded hdata _).mono (hmore id)
      next => cases hc
  | fetchFeedBack uid now =>
    cases hstep
    exact ⟨hsound, hheld, hflight, hlog⟩

theorem Bounded.opened : (opened ∅).Bounded fun _ => 0 where
  sound := .opened
  cartoons := fun _ hc => nomatch hc
  flight := fun _ ht => nomatch ht
  log := fun _ he => nomatch he

/-- A whole run, with the calls that were made before it. -/
theorem Bounded.run : ∀ (es : List Event) {n t : App} {calls : DocID → Nat}, n.Bounded calls →
    Lib.run App.step n es = some t → t.Bounded fun id => calls id + likeCalls id es
  | [], n, t, calls, h, hrun => by
    obtain rfl := Option.some.inj hrun
    exact h
  | e :: es, n, t, calls, h, hrun => by
    obtain ⟨n', hstep, hrest⟩ := run_cons hrun
    have hnext := Bounded.run es (h.step hstep fun _ => rfl) hrest
    have hcount : (fun id => calls id + likeCalls id (e :: es)) = fun id =>
        calls id + (if e.likes id = true then 1 else 0) + likeCalls id es := by
      funext id
      rw [likeCalls, List.countP_cons, likeCalls]
      omega
    rwa [hcount]

end App

/-- For every run of any number of clients that do anything the app can do, with
copies of any age and calls that are answered in any order or fail: the number of
likes of every stored cartoon is at least zero and at most the number of calls of
`likeCartoon` on it so far, and so is that of every cartoon decoded from the
document and of every copy that a screen has. -/
theorem like_in_range {es : List App.Event} {n : App}
    (hrun : run App.step (App.opened ∅) es = some n) (id : DocID) :
    (∀ data, n.state.store.lookup ⟨.cartoon, id⟩ = some data →
      (∃ like, Dictionary.int? data "like" = some like ∧ 0 ≤ like ∧ like ≤ likeCalls id es) ∧
      ∀ now, 0 ≤ (Cartoon.init now id data).like ∧
        (Cartoon.init now id data).like ≤ likeCalls id es) ∧
    ∀ cartoon, n.showsCartoon cartoon = true → cartoon.cartoonId = id →
      0 ≤ cartoon.like ∧ cartoon.like ≤ likeCalls id es := by
  have hbounded := App.Bounded.opened.run es hrun
  have hcalls : (fun id => 0 + likeCalls id es) = fun id => likeCalls id es := by
    funext id
    exact Nat.zero_add _
  rw [hcalls] at hbounded
  refine ⟨fun data hdata => ⟨hbounded.stored hdata, hbounded.decoded hdata⟩, ?_⟩
  rintro cartoon hshows rfl
  exact hbounded.shown hshows

/-- Two clients like a cartoon from copies of the same age. -/
def App.sameAge : List App.Event :=
  [uploadByAuthor "c", success 0, read "c",
    .act (.action (.likeCartoon (some "reader") (posted "c") (User.init .empty))),
    .act (.action (.likeCartoon (some "author") (posted "c") (User.init .empty))),
    success 1, success 2, read "c"]

/-- `like_in_range` for them: one of two likes is counted. -/
theorem like_in_range_sameAge : ∃ n data,
    run App.step (App.opened ∅) App.sameAge = some n ∧
    n.state.store.lookup ⟨.cartoon, "c"⟩ = some data ∧
    (∃ like, Dictionary.int? data "like" = some like ∧ 0 ≤ like ∧ like ≤ 2) ∧
    Dictionary.int? data "like" = some 1 := by
  have hrun : run App.step (App.opened ∅) App.sameAge =
      some ((run App.step (App.opened ∅) App.sameAge).get (by decide)) := (Option.some_get _).symm
  have hdata : ((run App.step (App.opened ∅) App.sameAge).get (by decide)).state.store.lookup
      ⟨.cartoon, "c"⟩ = some ((((run App.step (App.opened ∅) App.sameAge).get
        (by decide)).state.store.lookup ⟨.cartoon, "c"⟩).get (by decide)) :=
    (Option.some_get _).symm
  exact ⟨_, _, hrun, hdata, (((like_in_range hrun "c").1 _ hdata).1 :), by decide⟩

end Toontagram
