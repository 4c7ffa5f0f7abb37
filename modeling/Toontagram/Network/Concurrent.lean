import Toontagram.Api.Finish
import Toontagram.Network.Refine

/-!
# Operations at the same time

Operations of many devices are under way together, and their calls are answered in any
order. Where no two of them write a document differently and none changes what
another one asks for (`Operation.Apart`), it does not matter: when all calls are
answered, the documents are those of the network that has performed the operations
one by one, in any order (`App.serializable`).

The writes of such operations, each read off the store at the start, are one list that
does not conflict. Every call in flight has its part in it, and so have the calls of
an attempt that failed: `App.retried` is about an operation that is started again.
-/

namespace Toontagram

open Lib (Compatible DocWrite Store run)

/-- The second operation writes no document differently from the first one, and does not
change what the first one asks for. -/
structure Operation.Apart (s : Firestore) (o o' : Operation) : Prop where
  writes : ∀ w ∈ o.script s, ∀ w' ∈ o'.script s, w.ref = w'.ref → w = w'
  reads : ∀ k ∈ o.calls, ∀ q ∈ k.reads, q.ids (s.play (o'.script s)) = q.ids s

/-- Any two different operations of the list are apart. -/
def ConflictFree (s : Firestore) (os : List Operation) : Prop :=
  ∀ o ∈ os, ∀ o' ∈ os, o ≠ o' → o.Apart s o'

/-- The writes of operations that are started on the same store. -/
def scripts (s : Firestore) (os : List Operation) : List Write := os.flatMap (Operation.script s)

theorem mem_scripts {s : Firestore} {os : List Operation} {w : Write} :
    w ∈ scripts s os ↔ ∃ o ∈ os, w ∈ o.script s := List.mem_flatMap

namespace ConflictFree

variable {s : Firestore} {os os' : List Operation}

theorem mono (h : ConflictFree s os) (hos : ∀ o ∈ os', o ∈ os) : ConflictFree s os' :=
  fun o ho o' ho' => h o (hos o ho) o' (hos o' ho')

/-- One operation, any number of times. -/
theorem of_eq {o₀ : Operation} (h : ∀ o ∈ os, o = o₀) : ConflictFree s os :=
  fun o ho o' ho' hne => absurd ((h o ho).trans (h o' ho').symm) hne

theorem compatible (h : ConflictFree s os) : Compatible (scripts s os) := by
  intro w hw w' hw' href
  obtain ⟨o, ho, hw⟩ := mem_scripts.mp hw
  obtain ⟨o', ho', hw'⟩ := mem_scripts.mp hw'
  by_cases hoo : o = o'
  · subst hoo
    exact o.compatible s w hw w' hw' href
  · exact (h o ho o' ho' hoo).writes w hw w' hw' href

/-- None of the operations changes what one of them asks for. -/
theorem reads (h : ConflictFree s os) {o o' : Operation} (ho : o ∈ os) (ho' : o' ∈ os) {k : Call}
    (hk : k ∈ o.calls) {q : Query} (hq : q ∈ k.reads) :
    q.ids (s.play (o'.script s)) = q.ids s := by
  by_cases hoo : o = o'
  · subst hoo
    exact (Operation.reads_steady s hk hq).1
  · exact (h o ho o' ho' hoo).reads k hk q hq

/-- Nor do all of them together: a document is left by the writes of one operation. -/
theorem steady (h : ConflictFree s os) {o : Operation} (ho : o ∈ os) {k : Call} (hk : k ∈ o.calls)
    {q : Query} (hq : q ∈ k.reads) : q.Steady (scripts s os) s := by
  refine ⟨?_, Operation.reads_beside hk hq⟩
  ext x
  by_cases hx : ∃ w ∈ scripts s os, w.ref = ⟨q.collection, x⟩
  · obtain ⟨w, hw, href⟩ := hx
    obtain ⟨o', ho', hw'⟩ := mem_scripts.mp hw
    have hleft : (s.play (scripts s os)).lookup ⟨q.collection, x⟩ =
        (s.play (o'.script s)).lookup ⟨q.collection, x⟩ := by
      rw [← href, h.compatible.lookup_play hw, (o'.compatible s).lookup_play hw']
    rw [Query.mem_ids_congr hleft, h.reads ho ho' hk hq]
  · exact Query.mem_ids_congr (Store.lookup_play_ne fun w hw href => hx ⟨w, hw, href⟩)

/-- Each call of the operations has its part in the common script. -/
theorem plays (h : ConflictFree s os) {o : Operation} (ho : o ∈ os) {k : Call}
    (hk : k ∈ o.calls) : k.Plays (scripts s os) s :=
  ⟨fun _ hw => mem_scripts.mpr ⟨o, ho, List.mem_flatMap.mpr ⟨k, hk, hw⟩⟩,
    fun _ hq => h.steady ho hk hq⟩

/-- After some of the operations the store is on the way of all of them. -/
theorem playing (h : ConflictFree s os) (hos : ∀ o ∈ os', o ∈ os) :
    Playing (scripts s os) s (s.play (scripts s os')) := by
  intro ref _
  by_cases hx : ∃ w ∈ scripts s os', w.ref = ref
  · obtain ⟨_, hw, rfl⟩ := hx
    obtain ⟨o, ho, hw'⟩ := mem_scripts.mp hw
    right
    rw [h.compatible.lookup_play (mem_scripts.mpr ⟨o, hos o ho, hw'⟩),
      (h.mono hos).compatible.lookup_play hw]
  · exact Or.inl (Store.lookup_play_ne fun w hw href => hx ⟨w, hw, href⟩)

/-- After some of the operations another one still has the writes that it had at the start. -/
theorem mem_script_play (h : ConflictFree s os) {o : Operation} (ho : o ∈ os)
    (hos : ∀ o' ∈ os', o' ∈ os) {w : Write} :
    w ∈ o.script (s.play (scripts s os')) ↔ w ∈ o.script s := by
  simp only [Operation.script, List.mem_flatMap]
  refine exists_congr fun k => and_congr_right fun hk => Call.mem_script_congr fun q hq => ?_
  exact (h.playing hos).ids (h.steady ho hk hq)

end ConflictFree

/-! ## One by one -/

/-- Operations that are apart, performed one by one, leave what their common script leaves. -/
theorem Network.StoredIn.scripts {N : Network} {s : Firestore} (h : N.StoredIn s)
    {os : List Operation} (hfree : ConflictFree s os) :
    (os.foldl Network.perform N).StoredIn (s.play (scripts s os)) := by
  -- from the end, where the script of the last operation is compared with that at the start
  induction os using List.reverseRecOn with
  | nil => exact h
  | append_singleton os o ih =>
    have hsub : ∀ o' ∈ os, o' ∈ os ++ [o] := fun o' ho' => List.mem_append_left _ ho'
    have hlast : o ∈ os ++ [o] := by simp
    have hstep := (ih (hfree.mono hsub)).script o
    have hplay : s.play (Toontagram.scripts s (os ++ [o])) =
        (s.play (Toontagram.scripts s os)).play (o.script s) := by
      rw [Toontagram.scripts, List.flatMap_append, List.flatMap_singleton]
      exact List.foldl_append ..
    rw [List.foldl_append, hplay]
    -- the queries of the last operation find the same before and after the others
    refine hstep.congr fun ref _ => ?_
    have hsame : ∀ w, w ∈ o.script s ↔ w ∈ o.script (s.play (Toontagram.scripts s os)) :=
      fun w => (hfree.mem_script_play hlast hsub).symm
    exact (o.compatible _).lookup_play_congr hsame _ ref

namespace App

/-! ## Many started operations -/

/-- The operations that the events start. -/
def started (es : List Event) : List Operation :=
  es.filterMap fun
    | .act o => some o
    | _ => none

/-- The calls of the operations are issued. -/
def startAll (n : App) (os : List Operation) : App := os.foldl App.start n

variable {N : Network} {n m n' : App} {os : List Operation} {s : Firestore} {ws : List Write}

theorem mem_startAll {t : Task} :
    t ∈ (n.startAll os).inflight ↔ t ∈ n.inflight ∨ ∃ o ∈ os, ∃ k ∈ o.calls, t = ⟨o, k⟩ := by
  induction os generalizing n with
  | nil => simp [startAll]
  | cons o os ih =>
    have hstart : t ∈ (n.start o).inflight ↔ t ∈ n.inflight ∨ ∃ k ∈ o.calls, t = ⟨o, k⟩ := by
      simp only [start, Lib.Flight.issue, List.mem_append, List.mem_map, eq_comm]
    rw [startAll, List.foldl_cons, ← startAll, ih, hstart]
    simp [or_assoc]

/-- How far the calls have come when further operations have been started on the way: as far
as if these had been started with the others. -/
theorem since_run {hws : Compatible ws} : ∀ (es : List Event) {os : List Operation} {n n' : App},
    (settling ws hws s).Since (m.startAll os) n →
    (∀ o ∈ started es, ∀ k ∈ o.calls, k.Plays ws s) →
    (∀ e ∈ es, e.succeeds = true) → run App.step n es = some n' →
    (settling ws hws s).Since (m.startAll (os ++ started es)) n'
  | [], os, n, n', h, _, _, hrun => by
    obtain rfl := Option.some.inj hrun
    simpa [started] using h
  | e :: es, os, n, n', h, hplays, hok, hrun => by
    obtain ⟨n₁, hstep, hrest⟩ := Lib.run_cons hrun
    have hok' : ∀ e' ∈ es, e'.succeeds = true := fun e' he' => hok e' (List.mem_cons_of_mem e he')
    cases e with
    | act o =>
      obtain ⟨-, -, rfl⟩ := step_act hstep
      have hnext : (settling ws hws s).Since (m.startAll (os ++ [o])) (n.start o) := by
        rw [startAll, List.foldl_append]
        refine h.issue fun t ht => ?_
        obtain ⟨k, hk, rfl⟩ := List.mem_map.mp ht
        exact hplays o (List.mem_cons_self ..) k hk
      -- as if the operation had been started at the beginning
      have hall := since_run es hnext (fun o' ho' => hplays o' (List.mem_cons_of_mem o ho')) hok'
        hrest
      rw [List.append_assoc] at hall
      exact hall
    | answer i r =>
      have hr : r.ok = true := hok _ (List.mem_cons_self ..)
      exact since_run es (h.answer hr hstep) hplays hok' hrest
    | fetchCartoon cartoonID r | fetchFeedBack uid now =>
      have hnext : (settling ws hws s).Since (m.startAll os) n₁ := by
        obtain rfl := Option.some.inj hstep
        exact ⟨h.inv, h.valid, h.owed, h.view, h.due⟩
      exact since_run es hnext hplays hok' hrest

/-- The store is on the way, and every call in flight has its part in the script. -/
def Underway (ws : List Write) (s : Firestore) (n : App) : Prop :=
  Playing ws s n.state.store ∧ ∀ t ∈ n.inflight, t.call.Plays ws s

theorem Underway.of_quiet (hn : n.Quiet) (ws : List Write) : n.Underway ws n.state.store := by
  refine ⟨Playing.refl _ _, fun t ht => ?_⟩
  rw [hn] at ht
  cases ht

/-- It stays so whatever the answers are. -/
theorem Underway.step (hws : Compatible ws) (h : n.Underway ws s) {e : Event}
    (hplays : ∀ o, e = .act o → ∀ k ∈ o.calls, k.Plays ws s) (hstep : n.step e = some n') :
    n'.Underway ws s := by
  obtain ⟨hplaying, hvalid⟩ := h
  cases e with
  | act o =>
    obtain ⟨-, -, rfl⟩ := step_act hstep
    refine ⟨hplaying, fun t ht => ?_⟩
    rcases mem_start ht with ht | ⟨k, hk, rfl⟩
    · exact hvalid t ht
    · exact hplays o rfl k hk
  | answer i r =>
    obtain ⟨pre, t, post, hin, -, rfl⟩ := step_answer hstep
    have ht : t.call.Plays ws s := hvalid t (by rw [hin]; simp)
    refine ⟨ht.exec hws hplaying, fun t' ht' => ?_⟩
    rcases mem_answered hin ht' with ht' | ⟨k, hk, rfl⟩
    · exact hvalid t' ht'
    · exact ht.spawned hplaying hk
  | fetchCartoon cartoonID r | fetchFeedBack uid now =>
    obtain rfl := Option.some.inj hstep
    exact ⟨hplaying, hvalid⟩

theorem Underway.after (hfree : ConflictFree s os) (h : m.Underway (scripts s os) s)
    {es : List Event} (hos : ∀ o ∈ started es, o ∈ os) (hrun : run App.step m es = some n) :
    n.Underway (scripts s os) s := by
  refine Lib.run_inv_of_forall (A := fun e => ∀ o, e = .act o → o ∈ os) ?_ ?_ h hrun
  · intro m e m' hm he hstep
    exact hm.step hfree.compatible (fun o ho k hk => hfree.plays (he o ho) hk) hstep
  · rintro _ he o rfl
    exact hos o (List.mem_filterMap.mpr ⟨_, he, rfl⟩)

/-- Operations that are apart are all started, on the way of their script, and from then on no
call fails. When all are answered, the documents are as the script leaves them. -/
theorem Underway.finished (hfree : ConflictFree s os) (h : m.Underway (scripts s os) s)
    {es : List Event} (hos : ∀ o, o ∈ os ↔ o ∈ started es) (hok : ∀ e ∈ es, e.succeeds = true)
    (hrun : run App.step m es = some n') (hn' : n'.Quiet) {ref : DocRef}
    (hbeside : isFeedback ref = false) :
    n'.state.store.lookup ref = (s.play (scripts s os)).lookup ref := by
  have hstart : (settling _ hfree.compatible s).Since (m.startAll []) m := .refl h.1 h.2
  have hsince := since_run es hstart
    (fun o ho k hk => hfree.plays ((hos o).mpr ho) hk) hok hrun
  -- nothing is in flight any more: whatever a call owed has been written
  obtain ⟨howed, -⟩ := hsince.settled hn' ⟨ref, hbeside⟩
  by_cases href : ∃ w ∈ scripts s os, w.ref = ref
  · obtain ⟨w, hw, rfl⟩ := href
    obtain ⟨o, ho, hw⟩ := mem_scripts.mp hw
    obtain ⟨k, hk, hw⟩ := List.mem_flatMap.mp hw
    exact howed ⟨⟨o, k⟩, mem_startAll.mpr (Or.inr ⟨o, (hos o).mp ho, k, hk, rfl⟩), w, hw, rfl⟩
  · -- no call owes the document, so it has not changed on the way
    have hne : ∀ w ∈ scripts s os, w.ref ≠ ref := fun w hw hwref => href ⟨w, hw, hwref⟩
    have hplay : (s.play (scripts s os)).lookup ref = s.lookup ref := Store.lookup_play_ne hne
    rw [hplay]
    rcases hsince.inv ref hbeside with hsame | hfinal
    · exact hsame
    · exact hfinal.trans hplay

/-! ## Runs -/

/-- Operations of any devices that are apart, started at any time and answered in any order:
when all calls are answered, and none has failed, the documents are those of the network that has
performed the operations one by one, whatever the order. -/
theorem serializable {es : List Event} (hN : N.StoredIn n.state.store) (hn : n.Quiet)
    (hos : ∀ o, o ∈ os ↔ o ∈ started es) (hfree : ConflictFree n.state.store os)
    (hok : ∀ e ∈ es, e.succeeds = true) (hrun : run App.step n es = some n') (hn' : n'.Quiet) :
    (os.foldl Network.perform N).StoredIn n'.state.store :=
  (hN.scripts hfree).congr fun _ hbeside =>
    (Underway.of_quiet hn _).finished hfree hos hok hrun hn' hbeside

/-- On the way, and when calls fail, no document is anything but old or new: each is as
before the operations, or as in a store of the network that has performed them. -/
theorem old_or_new {es : List Event} (hN : N.StoredIn n.state.store) (hn : n.Quiet)
    (hos : ∀ o ∈ started es, o ∈ os) (hfree : ConflictFree n.state.store os)
    (hrun : run App.step n es = some n') :
    ∃ s, (os.foldl Network.perform N).StoredIn s ∧ ∀ ref, isFeedback ref = false →
      n'.state.store.lookup ref = n.state.store.lookup ref ∨
        n'.state.store.lookup ref = s.lookup ref :=
  ⟨_, hN.scripts hfree, ((Underway.of_quiet hn _).after hfree hos hrun).1⟩

/-- The reader begins to follow the author. -/
def follow : Operation :=
  let reader := User.init (.ofList [("uid", .string "reader")])
  let author := User.init (.ofList [("uid", .string "author")])
  .action (.didTapButton (some "reader") (some reader) 0 author)

/-- At the same time a painter uploads a cartoon; the answers of the two alternate. -/
def together : List Operation :=
  [follow, .action (.uploadCartoon (some "painter") (post "c"))]

def alternating : List Event :=
  together.map .act ++ [success 1, success 0, success 0, success 0, success 1, success 0, success 0]

theorem together_free : ConflictFree ∅ together := by
  have hrefs : ∀ o ∈ together, ∀ o' ∈ together, o ≠ o' →
      ∀ w ∈ o.script ∅, ∀ w' ∈ o'.script ∅, w.ref ≠ w'.ref := by decide
  have hreads : ∀ o ∈ together, ∀ o' ∈ together, ∀ k ∈ o.calls, ∀ q ∈ k.reads,
      (q.documents (Store.play ∅ (o'.script ∅))).map Prod.fst = (q.documents ∅).map Prod.fst := by
    decide
  intro o ho o' ho' hne
  refine ⟨fun w hw w' hw' href => absurd href (hrefs o ho o' ho' hne w hw w' hw'), ?_⟩
  exact fun k hk q hq => Query.ids_eq (hreads o ho o' ho' k hk q hq)

theorem serializable_alternating : ∃ n, run App.step (opened ∅) alternating = some n ∧
    (together.reverse.foldl Network.perform Network.empty).StoredIn n.state.store := by
  have hrun : run App.step (opened ∅) alternating =
      some ((run App.step (opened ∅) alternating).get (by decide)) := (Option.some_get _).symm
  have hquiet : (opened ∅).Quiet := rfl
  have hstarted : started alternating = together := by decide
  have hfree : ConflictFree ∅ together.reverse :=
    together_free.mono fun o ho => List.mem_reverse.mp ho
  have hos : ∀ o, o ∈ together.reverse ↔ o ∈ started alternating := by
    intro o
    rw [hstarted, List.mem_reverse]
  exact ⟨_, hrun, serializable .empty hquiet hos hfree (by decide) hrun (by decide)⟩

/-- The follow is accepted in part, and the cartoon is refused. -/
def halfway : List Event :=
  together.map .act ++ [success 0, .answer 0 ⟨false, ⟨"id", ⟨0, 0⟩⟩⟩]

theorem old_or_new_halfway : ∃ n s, run App.step (opened ∅) halfway = some n ∧
    (together.foldl Network.perform Network.empty).StoredIn s ∧ ∀ ref, isFeedback ref = false →
      n.state.store.lookup ref = (opened ∅).state.store.lookup ref ∨
        n.state.store.lookup ref = s.lookup ref := by
  have hrun : run App.step (opened ∅) halfway =
      some ((run App.step (opened ∅) halfway).get (by decide)) := (Option.some_get _).symm
  have hquiet : (opened ∅).Quiet := rfl
  obtain ⟨s, hs, hsame⟩ := old_or_new .empty hquiet (by decide) together_free hrun
  exact ⟨_, s, hrun, hs, hsame⟩

end App

end Toontagram
