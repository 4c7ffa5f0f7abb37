import Mathlib.Data.List.Sort
import Toontagram.Lib.Gather
import Toontagram.Lib.Run
import Toontagram.Api.Services

/-!
# One load of the feed

`CartoonService.fetchCartoonFeed`: it asks for the whole collection of
cartoons, then fetches every document of the answer once more on its own. The
closure of each fetch takes the cartoon into the captured list, sorts the list
and hands it to the completion, so a load of `n` documents hands over up to `n`
lists. The fetches are answered in any order, some of them with an error and
some never.

The store does not change during a load. `CartoonStore` keeps what
`uploadCartoon` gives every cartoon document, a time: without one, the decoder
would read the clock and a document would decode to another cartoon each time.
`FeedSort` is the closure's `sort(by:)`, of which only the documented part is
used: its result is a sorted permutation of its argument.

`Load.Sound` is the invariant of a load, `handed_over` what every run hands
over.
-/

namespace Toontagram

open Lib (gather gather_arranged gather_perm run run_cons run_inv)

/-! ## The store of a load -/

/-- A store in which every cartoon has a time. -/
structure CartoonStore where
  documents : Firestore
  timed : ∀ (id : DocID) (data : Dictionary), documents.lookup ⟨.cartoon, id⟩ = some data →
    ∃ t, data.timestamp? "time" = some t

namespace CartoonStore

def empty : CartoonStore := ⟨∅, fun _ _ h => by cases h⟩

/-- The store after `uploadCartoon` has added its document. -/
def upload (s : CartoonStore) (uid : Uid) (u : CartoonService.Upload) : CartoonStore where
  documents := (Lib.DocWrite.setData ⟨.cartoon, u.ref⟩ (u.data uid)).apply s.documents
  timed := by
    intro id data h
    rw [Lib.Store.lookup_apply_setData] at h
    split at h
    next => exact ⟨u.now, by rw [← Option.some.inj h]; rfl⟩
    next => exact s.timed id data h

/-- The cartoon a document decodes to. The time given to the decoder is not
read (`init_eq`). -/
def cartoon? (s : CartoonStore) (id : DocID) : Option Cartoon :=
  (s.documents.lookup ⟨.cartoon, id⟩).map (Cartoon.init ⟨0, 0⟩ id)

/-- The documents of the answer to `COLLECTION_CARTOON.getDocuments`. -/
def ids (s : CartoonStore) : List DocID :=
  (Query.documents { collection := .cartoon } s.documents).map Prod.fst

/-- All cartoons of the store. -/
def cartoons (s : CartoonStore) : List Cartoon := s.ids.filterMap s.cartoon?

theorem init_eq (s : CartoonStore) (now : Timestamp) (id : DocID) :
    (s.documents.lookup ⟨.cartoon, id⟩).map (Cartoon.init now id) = s.cartoon? id := by
  unfold cartoon?
  cases h : s.documents.lookup ⟨.cartoon, id⟩ with
  | none => rfl
  | some data =>
    obtain ⟨t, ht⟩ := s.timed id data h
    exact congrArg some (Cartoon.init_timed ht _ _ id)

/-- A cartoon keeps the identifier of its document. -/
theorem cartoonId_of {s : CartoonStore} {id : DocID} {c : Cartoon} (h : s.cartoon? id = some c) :
    c.cartoonId = id := by
  obtain ⟨data, -, rfl⟩ := Option.map_eq_some_iff.mp h
  rfl

/-- The query lists documents that exist. -/
theorem exists_cartoon {s : CartoonStore} {id : DocID} (h : id ∈ s.ids) :
    ∃ cartoon, s.cartoon? id = some cartoon := by
  obtain ⟨data, hdata⟩ := Option.isSome_iff_exists.mp (Lib.Store.mem_documents_map_fst.mp h)
  exact ⟨_, by rw [cartoon?, hdata]; rfl⟩

theorem nodup_ids (s : CartoonStore) : s.ids.Nodup := Lib.Store.nodup_documents _ _

/-- Different documents decode to different cartoons. -/
theorem nodup_filterMap (s : CartoonStore) {ids : List DocID} (h : ids.Nodup) :
    (ids.filterMap s.cartoon?).Nodup := by
  refine h.filterMap fun id id' c hc hc' => ?_
  exact (cartoonId_of hc).symm.trans (cartoonId_of hc')

theorem nodup_cartoons (s : CartoonStore) : s.cartoons.Nodup := s.nodup_filterMap s.nodup_ids

theorem mem_cartoons_of {s : CartoonStore} {ids : List DocID} (h : ∀ id ∈ ids, id ∈ s.ids)
    {c : Cartoon} (hc : c ∈ ids.filterMap s.cartoon?) : c ∈ s.cartoons := by
  obtain ⟨id, hid, hdec⟩ := List.mem_filterMap.mp hc
  exact List.mem_filterMap.mpr ⟨id, h id hid, hdec⟩

end CartoonStore

/-! ## The closures -/

/-- `$0.time.seconds > $1.time.seconds` never holds the other way round. -/
def Newest (cartoons : List Cartoon) : Prop :=
  cartoons.Pairwise fun a b => a.time.seconds ≥ b.time.seconds

instance : DecidablePred Newest := fun cartoons =>
  inferInstanceAs (Decidable (cartoons.Pairwise fun a b => a.time.seconds ≥ b.time.seconds))

/-- `sort(by: { $0.time.seconds > $1.time.seconds })`. -/
structure FeedSort where
  sort : List Cartoon → List Cartoon
  perm : ∀ cartoons, (sort cartoons).Perm cartoons
  newest : ∀ cartoons, Newest (sort cartoons)

instance : Std.Total fun a b : Cartoon => a.time.seconds ≥ b.time.seconds :=
  ⟨fun a b => by omega⟩

instance : IsTrans Cartoon fun a b => a.time.seconds ≥ b.time.seconds :=
  ⟨fun a b c hab hbc => by omega⟩

/-- Insertion into the sorted list is one such sort. -/
def FeedSort.insertion : FeedSort where
  sort := List.insertionSort fun a b => a.time.seconds ≥ b.time.seconds
  perm := List.perm_insertionSort _
  newest := List.pairwise_insertionSort _

/-- A call of `fetchCartoonFeed`: whether its query is unanswered, the
documents whose fetch is, those whose fetch was completed, in that order, and
the captured `cartoons`. -/
structure Load where
  asked : Bool
  waiting : List DocID
  completed : List DocID
  cartoons : List Cartoon
deriving DecidableEq, Repr

/-- `CartoonService.fetchCartoonFeed(completion:)`. -/
def CartoonService.fetchCartoonFeed : Load := ⟨true, [], [], []⟩

/-- An answer of the server to a load. -/
inductive LoadEvent where
  | documents (r : Reply)
  | document (id : DocID) (r : Reply)
deriving DecidableEq, Repr

/-- The load after an answer, and the list its completion is called with. -/
def Load.step (sort : FeedSort) (s : CartoonStore) (l : Load) :
    LoadEvent → Option (Load × Option (List Cartoon))
  | .documents r =>
    if l.asked then
      some ({ l with asked := false, waiting := if r.ok then s.ids else [] }, none)
    else none
  | .document id r =>
    if id ∈ l.waiting then
      let waiting := l.waiting.erase id
      match CartoonService.fetchCartoon s.documents id r with
      | none => some ({ l with waiting := waiting }, none)
      | some cartoon =>
        let cartoons := gather sort.sort l.cartoons cartoon
        some (⟨l.asked, waiting, l.completed ++ [id], cartoons⟩, some cartoons)
    else none

namespace Load

variable {sort : FeedSort} {s : CartoonStore}

/-- What an answer can do: the query starts the fetches, a fetch fails, or it
is completed and a list is handed over. -/
theorem step_cases {l l' : Load} {e : LoadEvent} {out : Option (List Cartoon)}
    (h : l.step sort s e = some (l', out)) :
    (∃ r : Reply, e = .documents r ∧ l.asked = true ∧ out = none ∧
      l' = { l with asked := false, waiting := if r.ok then s.ids else [] }) ∨
    (∃ id r, e = .document id r ∧ id ∈ l.waiting ∧
      CartoonService.fetchCartoon s.documents id r = none ∧ out = none ∧
      l' = { l with waiting := l.waiting.erase id }) ∨
    (∃ id r cartoon, e = .document id r ∧ id ∈ l.waiting ∧ s.cartoon? id = some cartoon ∧
      CartoonService.fetchCartoon s.documents id r = some cartoon ∧
      out = some (gather sort.sort l.cartoons cartoon) ∧
      l' = ⟨l.asked, l.waiting.erase id, l.completed ++ [id],
        gather sort.sort l.cartoons cartoon⟩) := by
  cases e with
  | documents r =>
    rw [step] at h
    split at h
    next hasked =>
      obtain ⟨rfl, rfl⟩ := Prod.mk.inj (Option.some.inj h)
      exact .inl ⟨r, rfl, hasked, rfl, rfl⟩
    next => cases h
  | document id r =>
    rw [step] at h
    split at h
    next hid =>
      split at h
      next hnone =>
        obtain ⟨rfl, rfl⟩ := Prod.mk.inj (Option.some.inj h)
        exact .inr (.inl ⟨id, r, rfl, hid, hnone, rfl, rfl⟩)
      next cartoon hsome =>
        obtain ⟨rfl, rfl⟩ := Prod.mk.inj (Option.some.inj h)
        refine .inr (.inr ⟨id, r, cartoon, rfl, hid, ?_, hsome, rfl, rfl⟩)
        rw [CartoonService.fetchCartoon] at hsome
        split at hsome
        next => rwa [s.init_eq] at hsome
        next => cases hsome
    next => cases h

/-- A list that is handed over is the captured one; without one, the captured
list has not changed. -/
theorem cartoons_step {l l' : Load} {e : LoadEvent} {out : Option (List Cartoon)}
    (h : l.step sort s e = some (l', out)) : l'.cartoons = out.getD l.cartoons := by
  rcases step_cases h with ⟨r, -, -, rfl, rfl⟩ | ⟨id, r, -, -, -, rfl, rfl⟩ |
    ⟨id, r, cartoon, -, -, -, -, rfl, rfl⟩ <;> rfl

/-! ## The invariant -/

/-- A load has fetched some documents of the store, each once, and holds their
cartoons in order. -/
structure Sound (s : CartoonStore) (l : Load) : Prop where
  asked : l.asked = true → l.waiting = [] ∧ l.completed = []
  nodup : (l.completed ++ l.waiting).Nodup
  stored : ∀ id ∈ l.completed ++ l.waiting, id ∈ s.ids
  perm : l.cartoons.Perm (l.completed.filterMap s.cartoon?)
  newest : Newest l.cartoons

theorem Sound.start : CartoonService.fetchCartoonFeed.Sound s where
  asked _ := ⟨rfl, rfl⟩
  nodup := List.nodup_nil
  stored _ h := by cases h
  perm := .refl _
  newest := .nil

/-- Dropping a fetch keeps the fetches different and stored. -/
theorem Sound.waiting_erase {l : Load} (h : l.Sound s) (id : DocID) :
    { l with waiting := l.waiting.erase id }.Sound s where
  asked ha := by
    obtain ⟨hw, hc⟩ := h.asked ha
    exact ⟨by rw [hw]; rfl, hc⟩
  nodup := h.nodup.sublist (List.erase_sublist.append_left _)
  stored i hi := h.stored i ((List.erase_sublist.append_left _).subset hi)
  perm := h.perm
  newest := h.newest

/-- A completed fetch was not completed before. -/
theorem Sound.not_completed {l : Load} (h : l.Sound s) {id : DocID} (hid : id ∈ l.waiting) :
    id ∉ l.completed := fun hc => (List.nodup_append.mp h.nodup).2.2 id hc id hid rfl

/-- The cartoon of a completed fetch is new to the load: identifiers differ. -/
theorem Sound.not_gathered {l : Load} (h : l.Sound s) {id : DocID} {cartoon : Cartoon}
    (hid : id ∈ l.waiting) (hdec : s.cartoon? id = some cartoon) : cartoon ∉ l.cartoons := by
  intro hmem
  obtain ⟨id', hid', hdec'⟩ := List.mem_filterMap.mp (h.perm.mem_iff.mp hmem)
  have heq : id' = id :=
    (CartoonStore.cartoonId_of hdec').symm.trans (CartoonStore.cartoonId_of hdec)
  exact h.not_completed hid (heq ▸ hid')

theorem Sound.step {l l' : Load} {e : LoadEvent} {out : Option (List Cartoon)} (h : l.Sound s)
    (hstep : l.step sort s e = some (l', out)) : l'.Sound s := by
  rcases step_cases hstep with ⟨r, -, hasked, -, rfl⟩ | ⟨id, r, -, -, -, -, rfl⟩ |
    ⟨id, r, cartoon, -, hid, hdec, -, -, rfl⟩
  · -- the query is answered once, before any fetch
    obtain ⟨-, hc⟩ := h.asked hasked
    refine ⟨fun h => (by cases h), ?_, ?_, h.perm, h.newest⟩
    · rw [hc, List.nil_append]
      split
      · exact s.nodup_ids
      · exact List.nodup_nil
    · intro id hid
      rw [hc, List.nil_append] at hid
      split at hid
      · exact hid
      · cases hid
  · exact h.waiting_erase id
  · -- the fetch moves from `waiting` to the end of `completed`
    have hmove : (l.completed ++ [id] ++ l.waiting.erase id).Perm (l.completed ++ l.waiting) := by
      rw [List.append_assoc]
      exact (List.perm_cons_erase hid).symm.append_left _
    refine ⟨fun ha => ?_, hmove.nodup_iff.mpr h.nodup,
      fun i hi => h.stored i (hmove.mem_iff.mp hi), ?_, gather_arranged sort.newest h.newest _⟩
    · rw [(h.asked ha).1] at hid
      cases hid
    · refine (gather_perm sort.perm (h.not_gathered hid hdec)).trans ?_
      rw [List.filterMap_append, List.filterMap_cons_some hdec]
      exact h.perm.append_right _

/-- A load holds cartoons of the store only. -/
theorem Sound.mem_cartoons {l : Load} (h : l.Sound s) {c : Cartoon} (hc : c ∈ l.cartoons) :
    c ∈ s.cartoons :=
  CartoonStore.mem_cartoons_of (fun id hid => h.stored id (List.mem_append_left _ hid))
    (h.perm.mem_iff.mp hc)

/-- What a load hands over are cartoons of the store. -/
theorem Sound.mem_out {l l' : Load} {e : LoadEvent} {out : Option (List Cartoon)}
    (h : l.Sound s) (hstep : l.step sort s e = some (l', out)) :
    ∀ c ∈ out.getD [], c ∈ s.cartoons := by
  intro c hc
  have hcartoons := cartoons_step hstep
  cases out with
  | none => cases hc
  | some cartoons => exact (h.step hstep).mem_cartoons (hcartoons ▸ hc)

/-- A load that has completed every fetch holds every cartoon. -/
theorem Sound.perm_cartoons {l : Load} (h : l.Sound s) (hall : ∀ id ∈ s.ids, id ∈ l.completed) :
    l.cartoons.Perm s.cartoons := by
  refine h.perm.trans (List.Perm.filterMap _ ?_)
  rw [List.perm_ext_iff_of_nodup h.nodup.of_append_left s.nodup_ids]
  exact fun id => ⟨fun hid => h.stored id (List.mem_append_left _ hid), hall id⟩

end Load

/-! ## The lists handed over -/

/-- The documents whose fetches are completed by these answers, in that order. -/
def completions : List LoadEvent → List DocID :=
  List.filterMap fun
    | .document id r => if r.ok then some id else none
    | .documents _ => none

/-- A load and the lists it has handed over so far. -/
structure FeedRun where
  load : Load
  handed : List (List Cartoon)
deriving DecidableEq, Repr

namespace FeedRun

variable {sort : FeedSort} {s : CartoonStore}

def start : FeedRun := ⟨CartoonService.fetchCartoonFeed, []⟩

def step (sort : FeedSort) (s : CartoonStore) (r : FeedRun) (e : LoadEvent) : Option FeedRun :=
  (r.load.step sort s e).map fun x => ⟨x.1, r.handed ++ x.2.toList⟩

theorem step_load {r r' : FeedRun} {e : LoadEvent} (h : step sort s r e = some r') :
    ∃ out, r.load.step sort s e = some (r'.load, out) ∧ r'.handed = r.handed ++ out.toList := by
  obtain ⟨⟨load, out⟩, hstep, rfl⟩ := Option.map_eq_some_iff.mp h
  exact ⟨out, hstep, rfl⟩

/-- The `i`-th list handed over holds the cartoons of the first `i + 1`
completed fetches; the last one is the captured list. -/
structure Sound (s : CartoonStore) (r : FeedRun) : Prop where
  load : r.load.Sound s
  length : r.handed.length = r.load.completed.length
  last : r.handed.getLast?.getD [] = r.load.cartoons
  each : ∀ i cartoons, r.handed[i]? = some cartoons → Newest cartoons ∧
    cartoons.Perm ((r.load.completed.take (i + 1)).filterMap s.cartoon?)

theorem Sound.start : FeedRun.start.Sound s where
  load := .start
  length := rfl
  last := rfl
  each i cartoons h := by cases h

theorem Sound.step {r r' : FeedRun} {e : LoadEvent} (h : r.Sound s)
    (hstep : FeedRun.step sort s r e = some r') : r'.Sound s := by
  obtain ⟨out, hload, hhanded⟩ := step_load hstep
  have hsound := h.load.step hload
  obtain ⟨load', handed'⟩ := r'
  subst hhanded
  rcases Load.step_cases hload with ⟨o, -, hasked, rfl, rfl⟩ | ⟨id, o, -, -, -, rfl, rfl⟩ |
    ⟨id, o, cartoon, -, hid, hdec, -, rfl, rfl⟩
  · simp only [Option.toList_none, List.append_nil]
    exact ⟨hsound, h.length, h.last, h.each⟩
  · simp only [Option.toList_none, List.append_nil]
    exact ⟨hsound, h.length, h.last, h.each⟩
  · refine ⟨hsound, ?_, ?_, fun i cartoons hi => ?_⟩
    · simp only [Option.toList_some, List.length_append, List.length_singleton, h.length]
    · rw [Option.toList_some, List.getLast?_concat]
      rfl
    · rw [Option.toList_some] at hi
      rcases Nat.lt_or_ge i r.handed.length with hlt | hge
      · -- a list handed over before
        rw [List.getElem?_append_left hlt] at hi
        rw [List.take_append_of_le_length (by rw [← h.length]; omega)]
        exact h.each i cartoons hi
      · -- the list handed over now
        have hlen := (List.getElem?_eq_some_iff.mp hi).1
        rw [List.length_append, List.length_singleton] at hlen
        obtain rfl : i = r.handed.length := by omega
        rw [List.getElem?_append_right (le_refl _), Nat.sub_self] at hi
        obtain rfl := Option.some.inj hi
        rw [List.take_of_length_le (by
          rw [List.length_append, List.length_singleton, h.length])]
        exact ⟨hsound.newest, hsound.perm⟩

/-- The fetches a load has completed are read off its answers. -/
theorem completed_run : ∀ (es : List LoadEvent) {r t : FeedRun}, r.Sound s →
    run (FeedRun.step sort s) r es = some t →
    t.load.completed = r.load.completed ++ completions es
  | [], r, t, _, h => by
    obtain rfl : r = t := Option.some.inj h
    exact (List.append_nil _).symm
  | e :: es, r, t, hr, h => by
    obtain ⟨r', hstep, hrest⟩ := run_cons h
    rw [completed_run es (hr.step hstep) hrest]
    obtain ⟨out, hload, -⟩ := step_load hstep
    rcases Load.step_cases hload with ⟨o, rfl, -, -, hr'⟩ | ⟨id, o, rfl, hid, hnone, -, hr'⟩ |
      ⟨id, o, cartoon, rfl, -, -, hsome, -, hr'⟩
    · rw [hr']
      rfl
    · -- a document of the store decodes, so the answer was an error
      have hok : o.ok = false := by
        obtain ⟨c, hc⟩ := CartoonStore.exists_cartoon
          (hr.load.stored id (List.mem_append_right _ hid))
        by_contra hok
        rw [Bool.not_eq_false] at hok
        rw [CartoonService.fetchCartoon, if_pos hok, s.init_eq, hc] at hnone
        cases hnone
      rw [hr']
      simp [completions, hok]
    · have hok : o.ok = true := by
        by_contra hok
        rw [CartoonService.fetchCartoon, if_neg hok] at hsome
        cases hsome
      rw [hr']
      simp [completions, hok]

end FeedRun

/-- One call of `fetchCartoonFeed`, its answers in any order, with any of them
an error or missing: one list is handed over for each completed fetch; each
list is duplicate-free, newest first, and holds exactly the cartoons fetched so
far. When all fetches are completed the last one holds all cartoons. -/
theorem handed_over (sort : FeedSort) (s : CartoonStore) (es : List LoadEvent) (t : FeedRun)
    (h : run (FeedRun.step sort s) FeedRun.start es = some t) :
    t.handed.length = (completions es).length ∧
    (∀ i cartoons, t.handed[i]? = some cartoons →
      cartoons.Nodup ∧ Newest cartoons ∧
      cartoons.Perm (((completions es).take (i + 1)).filterMap s.cartoon?)) ∧
    ((∀ id ∈ s.ids, id ∈ completions es) →
      (t.handed.getLast?.getD []).Perm s.cartoons) := by
  have hsound : t.Sound s := run_inv (fun _ _ _ hr => hr.step) es .start h
  have hdone : t.load.completed = completions es := FeedRun.completed_run es .start h
  rw [← hdone]
  refine ⟨hsound.length, fun i cartoons hi => ?_, fun hall => ?_⟩
  · obtain ⟨hnewest, hperm⟩ := hsound.each i cartoons hi
    have hnodup := hsound.load.nodup.of_append_left.sublist (List.take_sublist (i + 1) _)
    exact ⟨hperm.nodup_iff.mpr (s.nodup_filterMap hnodup), hnewest, hperm⟩
  · rw [hsound.last]
    exact hsound.load.perm_cartoons hall

/-- Two uploads. -/
def twoCartoons : CartoonStore :=
  let user := User.init .empty
  let url := Vector.replicate 5 ""
  (CartoonStore.empty.upload "author" ⟨"Monday", "", "DAILY", user, url, ⟨1, 0⟩, "c"⟩).upload
    "author" ⟨"Tuesday", "", "RECOM", user, url, ⟨2, 0⟩, "d"⟩

def twoAnswers : List LoadEvent :=
  [.documents ⟨true, "", ⟨3, 0⟩⟩, .document "d" ⟨true, "", ⟨4, 0⟩⟩,
    .document "c" ⟨true, "", ⟨5, 0⟩⟩]

/-- `handed_over` where both fetches are completed. -/
theorem handed_over_two :
    ∃ t, run (FeedRun.step .insertion twoCartoons) FeedRun.start twoAnswers = some t ∧
      t.handed.length = 2 ∧ (t.handed.getLast?.getD []).Perm twoCartoons.cartoons := by
  have hrun : run (FeedRun.step .insertion twoCartoons) FeedRun.start twoAnswers =
      some ((run (FeedRun.step .insertion twoCartoons) FeedRun.start twoAnswers).get
        (by decide)) := (Option.some_get _).symm
  obtain ⟨hlength, -, hall⟩ := handed_over .insertion twoCartoons _ _ hrun
  exact ⟨_, hrun, hlength, hall (by decide)⟩

end Toontagram
