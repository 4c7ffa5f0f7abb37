import Toontagram.Api.Device
import Toontagram.Document.Writes
import Toontagram.Screen.Home

/-!
# Refreshes of the home screen

The home screen over a store that changes while none of its loads is outstanding: any
operation of anybody may reach the server. A refresh empties `cartoons` alone. The
lists of the types stay, and what a load hands over is compared with them as a whole,
so every version of a cartoon that was ever loaded stays beside the current one.

`HomeOverTime.Sound` is what holds in every run, and `Since` what the loads of a refresh
add to the lists until the store changes again. `listed_iff_fetched` says what the lists
hold: every version of a cartoon that an answer of the run has brought
(`CartoonStore.fetched`). `listed_once_iff` puts them together.
-/

namespace Toontagram

open Lib (DocWrite Shelved Store mem_foldl_shelve run run_inv run_inv_of_forall)

/-! ## A store that changes -/

/-- A cartoon has a time. -/
def Timed (ref : DocRef) (data : Dictionary) : Prop :=
  ref.collection = .cartoon → ∃ t, data.timestamp? "time" = some t

/-- An update without a time keeps the time. -/
theorem Timed.merge {ref : DocRef} {data fields : Dictionary} (h : Timed ref data)
    (hfields : fields "time" = none) : Timed ref (data.merge fields) := by
  intro href
  obtain ⟨t, ht⟩ := h href
  refine ⟨t, ?_⟩
  rw [Dictionary.timestamp?, Lib.Fields.merge_of_none hfields]
  exact ht

/-- The writes of users and cartoons leave every cartoon its time. -/
theorem TopWrite.keeps_timed {o : Operation} {w : Write} (h : TopWrite o w) : w.Keeps Timed := by
  cases h with
  | upload u a => exact fun _ => ⟨u.now, rfl⟩
  | like | unLike | edit | editUserData => exact fun data hdata => hdata.merge rfl
  | deleteCartoon => trivial
  | userRegister r => exact fun h => nomatch h

/-- So do all writes of the app. -/
theorem Operation.keeps_timed {o : Operation} {k : Call} (hk : k ∈ o.calls) {w : Write}
    {c : Completion} (hreq : k.request = .write w c) : w.Keeps Timed := by
  cases htop : w.ref.collection.top with
  | true => exact (Operation.top_calls hk w c hreq htop).keeps_timed
  | false =>
    have hne : w.ref.collection ≠ .cartoon := fun h => by rw [h] at htop; cases htop
    cases w with
    | setData ref data => exact fun h => absurd h hne
    | updateData ref fields => exact fun data _ h => absurd h hne
    | delete ref => trivial

/-- The store after the `i`-th of the calls an operation issues at once has succeeded.
What its closure issues writes no cartoon. -/
def Operation.effect (o : Operation) (i : Nat) (s : Firestore) : Firestore :=
  match o.calls[i]? with
  | some k => k.effect s
  | none => s

/-- The store of the cartoons after that. -/
def CartoonStore.change (s : CartoonStore) (o : Operation) (i : Nat) : CartoonStore where
  documents := o.effect i s.documents
  timed := by
    have hall : ∀ ref data, (o.effect i s.documents).lookup ref = some data → Timed ref data := by
      have hbefore : ∀ ref data, s.documents.lookup ref = some data → Timed ref data := by
        rintro ⟨collection, id⟩ data hdata rfl
        exact s.timed id data hdata
      unfold Operation.effect
      split
      next k hk =>
        obtain ⟨auth, request⟩ := k
        cases request with
        | write w c =>
          exact Store.all_apply hbefore (Operation.keeps_timed (List.mem_of_getElem? hk) rfl)
        | getDocuments q c => exact hbefore
        | getDocument ref c => exact hbefore
      next => exact hbefore
    exact fun id data hdata => hall ⟨.cartoon, id⟩ data hdata rfl

/-! ## The screen over time -/

/-- No answer to the load is outstanding. -/
def Load.idle (l : Load) : Bool := !l.asked && l.waiting.isEmpty

/-- The screen and the store. -/
structure HomeOverTime where
  home : Home
  store : CartoonStore

/-- Something happens to the screen, or the store changes. -/
inductive RefreshEvent where
  | home (e : HomeEvent)
  | change (o : Operation) (i : Nat)
deriving DecidableEq

/-- What the changes among the events make of the store. -/
def CartoonStore.after (store : CartoonStore) : List RefreshEvent → CartoonStore
  | [] => store
  | .home _ :: es => store.after es
  | .change o i :: es => (store.change o i).after es

/-- The cartoons that the answers among the events fetch, each in the version that is stored
when it is fetched. -/
def CartoonStore.fetched (store : CartoonStore) : List RefreshEvent → List Cartoon
  | [] => []
  | .home e :: es => (e.brings store).toList ++ store.fetched es
  | .change o i :: es => (store.change o i).fetched es

namespace HomeOverTime

/-- The screen opened without a preset cartoon. -/
def opened (store : CartoonStore) : HomeOverTime := ⟨Home.viewDidLoad none, store⟩

/-- One event. The store changes between the loads only. -/
def step (sort : FeedSort) (s : HomeOverTime) : RefreshEvent → Option HomeOverTime
  | .home e => (s.home.step sort s.store e).map fun home => { s with home := home }
  | .change o i =>
    if s.home.loads.all Load.idle then some { s with store := s.store.change o i } else none

/-- The four lists hold each cartoon at most once, in its current version, in the list
of its current type. -/
def ListedOnce (s : HomeOverTime) : Prop :=
  ((s.home.recomToons ++ s.home.loveToons ++ s.home.dailyToons ++ s.home.actionToons).map
    (·.cartoonId)).Nodup ∧
  ∀ k, ∀ c ∈ s.home.toons k, s.store.cartoon? c.cartoonId = some c ∧ c.category = k

/-- Every cartoon on the lists is still stored as it was loaded. -/
def UpToDate (s : HomeOverTime) : Prop := ∀ k, ∀ c ∈ s.home.toons k, c ∈ s.store.cartoons

variable {sort : FeedSort} {s s' : HomeOverTime}

/-! ## Every run -/

/-- A load that is answered was not idle. -/
theorem not_idle {store : CartoonStore} {l l' : Load} {ev : LoadEvent}
    {out : Option (List Cartoon)} (h : l.step sort store ev = some (l', out)) :
    l.idle = false := by
  rcases Load.step_cases h with ⟨r, -, hasked, -, -⟩ | ⟨id, r, -, hid, -⟩ |
    ⟨id, r, cartoon, -, hid, -⟩
  · simp [Load.idle, hasked]
  · simp [Load.idle, List.ne_nil_of_mem hid]
  · simp [Load.idle, List.ne_nil_of_mem hid]

/-- The loads that are not over have read the store as it is, and the lists are tidy. -/
structure Sound (s : HomeOverTime) : Prop where
  loads : ∀ l ∈ s.home.loads, l.idle = true ∨ l.Sound s.store
  tidy : s.home.Tidy

theorem Sound.opened (store : CartoonStore) : (opened store).Sound where
  loads l hl := by
    obtain rfl := List.mem_singleton.mp hl
    exact .inr .start
  tidy := .viewDidLoad none

/-- What a step can do to the screen: a load is started, or one that is not over takes a
step and hands over cartoons of the store. -/
theorem home_cases (h : s.Sound) {e : HomeEvent} (hstep : s.step sort (.home e) = some s') :
    (s' = { s with home := s.home.wantRefresh }) ∨
    ∃ i l' cartoons, l'.Sound s.store ∧ (∀ c ∈ cartoons, c ∈ s.store.cartoons) ∧
      s' = { s with home := { s.home with loads := s.home.loads.set i l' }.receive cartoons } := by
  obtain ⟨home, hhome, rfl⟩ := Option.map_eq_some_iff.mp hstep
  rcases Home.step_cases hhome with ⟨-, rfl⟩ | ⟨i, ev, l, l', out, -, hl, hload, rfl⟩
  · exact .inl rfl
  · have hsound : l.Sound s.store := (h.loads l hl).resolve_left fun hidle => by
      rw [not_idle hload] at hidle
      cases hidle
    exact .inr ⟨i, l', out.getD [], hsound.step hload, hsound.mem_out hload, rfl⟩

theorem Sound.step (h : s.Sound) {e : RefreshEvent} (hstep : s.step sort e = some s') :
    s'.Sound := by
  cases e with
  | home e =>
    obtain ⟨home, hhome, hs'⟩ := Option.map_eq_some_iff.mp hstep
    have htidy : s'.home.Tidy := by
      rw [← hs']
      exact h.tidy.step hhome
    rcases home_cases h hstep with rfl | ⟨i, l', cartoons, hl', -, rfl⟩
    · refine ⟨fun l hl => ?_, htidy⟩
      rcases Home.mem_loads_wantRefresh hl with hl | rfl
      · exact h.loads l hl
      · exact .inr .start
    · refine ⟨fun l hl => ?_, htidy⟩
      rw [Home.loads_receive] at hl
      rcases List.mem_or_eq_of_mem_set hl with hl | rfl
      · exact h.loads l hl
      · exact .inr hl'
  | change o i =>
    simp only [HomeOverTime.step] at hstep
    split at hstep
    next hidle =>
      obtain rfl := Option.some.inj hstep
      exact ⟨fun l hl => .inl (List.all_eq_true.mp hidle l hl), h.tidy⟩
    next => cases hstep

/-- An answer adds the cartoon it fetches to the lists, and nothing else does. -/
theorem listed_home (h : s.Sound) {e : HomeEvent} (hstep : s.step sort (.home e) = some s')
    (c : Cartoon) : (∃ k, c ∈ s'.home.toons k) ↔
      (∃ k, c ∈ s.home.toons k) ∨ c ∈ (e.brings s.store).toList := by
  obtain ⟨home, hhome, rfl⟩ := Option.map_eq_some_iff.mp hstep
  rcases h.tidy.step_cases hhome with ⟨rfl, rfl⟩ | ⟨-, loads, rfl⟩
  · show (∃ k, c ∈ s.home.wantRefresh.toons k) ↔ _
    rw [Home.toons_wantRefresh]
    exact (or_iff_left List.not_mem_nil).symm
  · show (∃ k, c ∈ (s.home.receive (e.brings s.store).toList).toons k) ↔ _
    rw [Home.toons_receive]
    constructor
    · rintro ⟨k, hc⟩
      rcases mem_foldl_shelve.mp hc with hc | ⟨hc, -⟩
      · exact .inl ⟨k, hc⟩
      · exact .inr hc
    · rintro (⟨k, hc⟩ | hc)
      · exact ⟨k, mem_foldl_shelve.mpr (.inl hc)⟩
      · exact ⟨c.category, mem_foldl_shelve.mpr (.inr ⟨hc, rfl⟩)⟩

/-- After a run the store is what the changes have made of it, and the lists hold what they
held and every version that was fetched. -/
theorem listed_iff_fetched {es : List RefreshEvent} (h : s.Sound)
    (hrun : run (HomeOverTime.step sort) s es = some s') :
    s'.store = s.store.after es ∧ ∀ c, (∃ k, c ∈ s'.home.toons k) ↔
      (∃ k, c ∈ s.home.toons k) ∨ c ∈ s.store.fetched es := by
  induction es generalizing s with
  | nil =>
    obtain rfl := Option.some.inj hrun
    exact ⟨rfl, fun c => (or_iff_left List.not_mem_nil).symm⟩
  | cons e es ih =>
    obtain ⟨u, hstep, hrest⟩ := Lib.run_cons hrun
    obtain ⟨hstore, hlisted⟩ := ih (h.step hstep) hrest
    cases e with
    | home e =>
      have hsame : u.store = s.store := by
        obtain ⟨home, -, rfl⟩ := Option.map_eq_some_iff.mp hstep
        rfl
      rw [hsame] at hstore hlisted
      refine ⟨hstore, fun c => ?_⟩
      rw [hlisted c, listed_home h hstep c, CartoonStore.fetched, List.mem_append, or_assoc]
    | change o i =>
      obtain ⟨-, hu⟩ := Option.ite_none_right_eq_some.mp hstep
      obtain rfl := Option.some.inj hu
      exact ⟨hstore, hlisted⟩

/-- The lists are up to date when all that was fetched is still stored as it was. -/
theorem upToDate_iff_fetched {store : CartoonStore} {es : List RefreshEvent}
    (hrun : run (HomeOverTime.step sort) (opened store) es = some s) :
    s.UpToDate ↔ ∀ c ∈ store.fetched es, c ∈ (store.after es).cartoons := by
  obtain ⟨hstore, hlisted⟩ := listed_iff_fetched (.opened store) hrun
  have hnone : ∀ c, ¬ ∃ k, c ∈ (opened store).home.toons k := by
    rintro c ⟨k, hc⟩
    rw [opened, Home.toons_viewDidLoad] at hc
    cases hc
  rw [UpToDate, hstore]
  constructor
  · intro hdate c hc
    obtain ⟨k, hk⟩ := (hlisted c).mpr (.inr hc)
    exact hdate k c hk
  · intro hfetched k c hc
    exact hfetched c (((hlisted c).mp ⟨k, hc⟩).resolve_left (hnone c))

/-- What has happened to the lists since `s₀`, with no change of the store: they have
kept what they held, and what was added is stored. -/
structure Since (s₀ s : HomeOverTime) : Prop where
  store : s.store = s₀.store
  kept : ∀ k, ∀ c ∈ s₀.home.toons k, c ∈ s.home.toons k
  added : ∀ k, ∀ c ∈ s.home.toons k, c ∈ s₀.home.toons k ∨ c ∈ s₀.store.cartoons

theorem Since.refl (s : HomeOverTime) : Since s s := ⟨rfl, fun _ _ h => h, fun _ _ h => .inl h⟩

theorem Since.step {s₀ : HomeOverTime} (hsince : Since s₀ s) (h : s.Sound) {e : HomeEvent}
    (hstep : s.step sort (.home e) = some s') : Since s₀ s' := by
  rcases home_cases h hstep with rfl | ⟨i, l', cartoons, -, hcartoons, rfl⟩
  · refine ⟨hsince.store, ?_, ?_⟩
    · rw [Home.toons_wantRefresh]
      exact hsince.kept
    · rw [Home.toons_wantRefresh]
      exact hsince.added
  · refine ⟨hsince.store, fun k c hc => ?_, fun k c hc => ?_⟩
    · rw [Home.toons_receive]
      exact mem_foldl_shelve.mpr (.inl (hsince.kept k c hc))
    · rw [Home.toons_receive] at hc
      rcases mem_foldl_shelve.mp hc with hc | ⟨hc, -⟩
      · exact hsince.added k c hc
      · exact .inr (hsince.store ▸ hcartoons c hc)

/-- The lists are up to date when they were, for what is added is. -/
theorem Since.upToDate_iff {s₀ : HomeOverTime} (hsince : Since s₀ s) :
    s.UpToDate ↔ s₀.UpToDate := by
  unfold UpToDate
  rw [hsince.store]
  constructor
  · exact fun h k c hc => h k c (hsince.kept k c hc)
  · exact fun h k c hc => (hsince.added k c hc).elim (h k c) id

end HomeOverTime

/-- A cartoon of the store is the one its identifier names. -/
theorem CartoonStore.mem_cartoons_iff {s : CartoonStore} {c : Cartoon} :
    c ∈ s.cartoons ↔ s.cartoon? c.cartoonId = some c := by
  constructor
  · intro hc
    obtain ⟨id, -, hid⟩ := List.mem_filterMap.mp hc
    exact (cartoonId_of hid).symm ▸ hid
  · intro hc
    refine List.mem_filterMap.mpr ⟨c.cartoonId, ?_, hc⟩
    obtain ⟨data, hdata, -⟩ := Option.map_eq_some_iff.mp hc
    exact Store.mem_documents_map_fst.mpr (Option.isSome_iff_exists.mpr ⟨data, hdata⟩)

/-- Lists that are up to date hold every cartoon once: two cartoons of the store with one
identifier are the same, and none is on two lists. -/
theorem HomeOverTime.Sound.listedOnce_iff {s : HomeOverTime} (h : s.Sound) :
    s.ListedOnce ↔ s.UpToDate := by
  have hflat : s.home.recomToons ++ s.home.loveToons ++ s.home.dailyToons ++ s.home.actionToons =
      [Category.recom, .love, .daily, .action].flatMap s.home.toons := by
    simp [Home.toons]
  constructor
  · exact fun hlisted k c hc => CartoonStore.mem_cartoons_iff.mpr (hlisted.2 k c hc).1
  · intro hdate
    have hcurrent : ∀ k, ∀ c ∈ s.home.toons k, s.store.cartoon? c.cartoonId = some c :=
      fun k c hc => CartoonStore.mem_cartoons_iff.mp (hdate k c hc)
    refine ⟨?_, fun k c hc => ⟨hcurrent k c hc, h.tidy.shelved.key k c hc⟩⟩
    rw [hflat]
    refine List.Nodup.map_on (fun c hc c' hc' hid => ?_) (h.tidy.shelved.nodup_flatMap (by decide))
    obtain ⟨k, -, hc⟩ := List.mem_flatMap.mp hc
    obtain ⟨k', -, hc'⟩ := List.mem_flatMap.mp hc'
    have heq := hcurrent k c hc
    rw [hid, hcurrent k' c' hc'] at heq
    exact (Option.some.inj heq).symm

/-- In every run of a home screen over a store that changes between its loads, and at any
time from a refresh to the next change of the store, so also when the load of the refresh
has delivered everything and no other is outstanding: the four lists hold each cartoon
at most once, in its current version and in the list of its current type, if and only if
every version of a cartoon that an answer has fetched before the refresh is the one that the
store has at the refresh, after the changes of the run. -/
theorem listed_once_iff (sort : FeedSort) (store : CartoonStore) (es : List RefreshEvent)
    (s : HomeOverTime) (hs : run (HomeOverTime.step sort) (.opened store) es = some s)
    (fs : List HomeEvent) (t : HomeOverTime)
    (ht : run (HomeOverTime.step sort) s (.home .wantRefresh :: fs.map .home) = some t) :
    t.ListedOnce ↔
      ∀ c ∈ store.fetched es, (store.after es).cartoon? c.cartoonId = some c := by
  have hsound : s.Sound := run_inv (fun _ _ _ h => h.step) es (.opened store) hs
  have hevents : ∀ e ∈ RefreshEvent.home .wantRefresh :: fs.map .home, ∃ e', e = .home e' := by
    simp
  obtain ⟨htsound, hsince⟩ : t.Sound ∧ HomeOverTime.Since s t := by
    refine run_inv_of_forall (P := fun t => t.Sound ∧ HomeOverTime.Since s t)
      (fun u e u' hu he hstep => ?_) hevents ⟨hsound, .refl s⟩ ht
    obtain ⟨e, rfl⟩ := he
    exact ⟨hu.1.step hstep, hu.2.step hu.1 hstep⟩
  rw [htsound.listedOnce_iff, hsince.upToDate_iff, HomeOverTime.upToDate_iff_fetched hs]
  simp only [CartoonStore.mem_cartoons_iff]

/-- Two cartoons are loaded, a third one is uploaded, and a refresh loads all three. -/
def uploadedBetween : List RefreshEvent × List HomeEvent :=
  ((loadAnswers 0).map .home ++
      [.change (.action (.uploadCartoon (some "author")
        ⟨"Friday", "", "LOVE", User.init .empty, Vector.replicate 5 "", ⟨6, 0⟩, "e"⟩)) 0],
    [.answer 1 (.documents ⟨true, "", ⟨7, 0⟩⟩), .answer 1 (.document "e" ⟨true, "", ⟨8, 0⟩⟩),
      .answer 1 (.document "c" ⟨true, "", ⟨8, 0⟩⟩), .answer 1 (.document "d" ⟨true, "", ⟨8, 0⟩⟩)])

/-- `listed_once_iff` there: what was fetched has not changed. -/
theorem listed_once_iff_uploadedBetween : ∃ s t,
    run (HomeOverTime.step .insertion) (.opened twoCartoons) uploadedBetween.1 = some s ∧
    run (HomeOverTime.step .insertion) s
      (.home .wantRefresh :: uploadedBetween.2.map .home) = some t ∧
    (∀ l ∈ t.home.loads, l.idle = true) ∧ t.home.loveToons.length = 1 ∧ t.ListedOnce := by
  let s := (run (HomeOverTime.step .insertion) (.opened twoCartoons) uploadedBetween.1).get
    (by decide)
  let t := (run (HomeOverTime.step .insertion) s
    (.home .wantRefresh :: uploadedBetween.2.map .home)).get (by decide)
  have hs : run (HomeOverTime.step .insertion) (.opened twoCartoons) uploadedBetween.1 = some s :=
    (Option.some_get _).symm
  have ht : run (HomeOverTime.step .insertion) s
      (.home .wantRefresh :: uploadedBetween.2.map .home) = some t := (Option.some_get _).symm
  exact ⟨s, t, hs, ht, by decide, by decide,
    (listed_once_iff .insertion twoCartoons _ s hs _ t ht).mpr (by decide)⟩

/-- Two cartoons are loaded, and somebody likes each of them. -/
def likedBetween : List RefreshEvent :=
  (loadAnswers 0).map .home ++ twoCartoons.cartoons.map fun cartoon =>
    .change (.action (.likeCartoon (some "reader") cartoon (User.init .empty))) 0

/-- After the next refresh both versions of each are listed. -/
theorem listed_once_likedBetween : ¬ ∀ (sort : FeedSort) (store : CartoonStore)
    (es : List RefreshEvent) (s : HomeOverTime) (fs : List HomeEvent) (t : HomeOverTime),
    run (HomeOverTime.step sort) (.opened store) es = some s →
    run (HomeOverTime.step sort) s (.home .wantRefresh :: fs.map .home) = some t →
    (∀ l ∈ t.home.loads, l.idle = true) →
    (∀ l ∈ t.home.loads[s.home.loads.length]?, ∀ id ∈ t.store.ids, id ∈ l.completed) →
    t.ListedOnce := by
  intro hall
  let s := (run (HomeOverTime.step .insertion) (.opened twoCartoons) likedBetween).get (by decide)
  let t := (run (HomeOverTime.step .insertion) s
    (.home .wantRefresh :: (loadAnswers 1).map .home)).get (by decide)
  have hlisted : t.ListedOnce := hall .insertion twoCartoons likedBetween s (loadAnswers 1) t
    (Option.some_get _).symm (Option.some_get _).symm (by decide) (by decide)
  have htwice : ¬ ((t.home.recomToons ++ t.home.loveToons ++ t.home.dailyToons ++
      t.home.actionToons).map (·.cartoonId)).Nodup := by decide
  exact htwice hlisted.1

end Toontagram
