import Toontagram.Lib.Rows
import Toontagram.Screen.Home

/-!
# The rows of the home screen

The data source and the delegate of `HomeCollectionViewController`. Section 0 is
`recomToons`; section 1 is the list of the selected category, of which "ALL" is
`cartoons`. A cell of section 1 is configured by a block that `cellForItemAt`
enqueues on the main queue: the row is the one of the request, the category and
the list are those of the time when the block runs, and taps, refreshes and
answers may come in between. A request keeps the screen of its time, which the
code does not, to say what was counted then.

`Tracked` is what holds of a counted cartoon until its block runs: the lists of
the types grow without it, and `cartoons` does until a refresh, after which the
cartoon is never in it again.
-/

namespace Toontagram

open Lib (Along GrewWithout concat_prefix_concat eq_of_prefix_of_subset rows_agree_iff run
  run_always_iff_along run_iff_along)

/-! ## The data source and the delegate -/

/-- The buttons of `HomeHeader`. -/
inductive HomeTab where
  | all
  | love
  | action
  | daily
deriving DecidableEq, Repr

/-- What a button passes to the delegate. -/
def HomeTab.category : HomeTab → String
  | .all => "ALL"
  | .love => "LOVE"
  | .action => "ACTION"
  | .daily => "DAILY"

/-- What `userSelect` is while the list of a type is selected. There is no
button for RECOM. -/
def Category.name : Category → String
  | .recom => "RECOM"
  | .daily => "DAILY"
  | .action => "ACTION"
  | .love => "LOVE"

theorem Category.name_ne_all (k : Category) : k.name ≠ "ALL" := by cases k <;> decide

theorem Category.name_inj {k k' : Category} (h : k.name = k'.name) : k = k' := by
  cases k <;> cases k' <;> first | rfl | exact absurd h (by decide)

namespace Home

/-- The list of `switch self.userSelect`; `none` is `default`. -/
def selected? (h : Home) (userSelect : String) : Option (List Cartoon) :=
  if userSelect = "LOVE" then some h.loveToons
  else if userSelect = "DAILY" then some h.dailyToons
  else if userSelect = "ACTION" then some h.actionToons
  else if userSelect = "ALL" then some h.cartoons
  else none

/-- `collectionView(_:numberOfItemsInSection:)`. -/
def numberOfItemsInSection (h : Home) (userSelect : String) (sectionIndex : Nat) : Nat :=
  if sectionIndex = 0 then h.recomToons.length
  else ((h.selected? userSelect).map List.length).getD 0

/-- The cartoon with which `collectionView(_:cellForItemAt:)`, or the block it
enqueues, configures the cell; `none` where it traps. -/
def cellForItemAt (h : Home) (userSelect : String) (sectionIndex row : Nat) : Option Cartoon :=
  if sectionIndex = 0 then h.recomToons[row]?
  else (h.selected? userSelect).bind fun cartoons => cartoons[row]?

/-- The cartoon that `collectionView(_:didSelectItemAt:)` opens; `none` where it
traps. -/
def didSelectItemAt (h : Home) (sectionIndex row : Nat) : Option Cartoon :=
  if sectionIndex = 0 then h.recomToons[row]? else h.cartoons[row]?

/-- What a button selects: `cartoons`, or the list of a type. -/
theorem selected?_cases (tab : HomeTab) :
    (tab.category = "ALL" ∧ ∀ h : Home, h.selected? tab.category = some h.cartoons) ∨
    (∃ k : Category, k ≠ .recom ∧ tab.category = k.name ∧
      ∀ h : Home, h.selected? tab.category = some (h.toons k)) := by
  cases tab with
  | all => exact .inl ⟨rfl, fun _ => rfl⟩
  | love => exact .inr ⟨.love, nofun, rfl, fun _ => rfl⟩
  | action => exact .inr ⟨.action, nofun, rfl, fun _ => rfl⟩
  | daily => exact .inr ⟨.daily, nofun, rfl, fun _ => rfl⟩

end Home

/-! ## The screen and its main queue -/

/-- A request for a cell, and the screen at the time of it. -/
structure CellRequest where
  sectionIndex : Nat
  row : Nat
  home : Home
  userSelect : String
  refreshes : Nat
deriving DecidableEq, Repr

/-- The cartoon the data source counted at the row. -/
def CellRequest.counted (r : CellRequest) : Option Cartoon :=
  r.home.cellForItemAt r.userSelect r.sectionIndex r.row

/-- The screen, the blocks on the main queue, the cells that were configured, the
number of refreshes so far, and whether an index was out of range. -/
structure HomeScreen where
  home : Home
  userSelect : String := "ALL"
  blocks : List CellRequest := []
  configured : List (CellRequest × Cartoon) := []
  refreshes : Nat := 0
  crashed : Bool := false
deriving DecidableEq, Repr

/-- What happens on the main queue: a refresh or an answer from the store, a tap
on the header, a request for a cell, or the next block. -/
inductive HomeScreenEvent where
  | home (s : CartoonStore) (e : HomeEvent)
  | didTab (tab : HomeTab)
  | cellForItemAt (sectionIndex row : Nat)
  | block

namespace HomeScreen

/-- `viewDidLoad()` of a screen opened with `cartoon`. -/
def viewDidLoad (cartoon : Option Cartoon) : HomeScreen := { home := Home.viewDidLoad cartoon }

/-- A request for a cell of the screen as it is. -/
def request (s : HomeScreen) (sectionIndex row : Nat) : CellRequest :=
  ⟨sectionIndex, row, s.home, s.userSelect, s.refreshes⟩

/-- `cell.viewModel = CartoonViewModel(cartoon:)`. -/
def configure (s : HomeScreen) (r : CellRequest) : HomeScreen :=
  match s.home.cellForItemAt s.userSelect r.sectionIndex r.row with
  | none => { s with crashed := true }
  | some cartoon => { s with configured := s.configured ++ [(r, cartoon)] }

/-- Cells are requested for rows that are counted; a crash ends everything. -/
def step (sort : FeedSort) (s : HomeScreen) (e : HomeScreenEvent) : Option HomeScreen :=
  if s.crashed then none
  else match e with
    | .home store e => (s.home.step sort store e).map fun home =>
      { s with
        home := home
        refreshes := if e = .wantRefresh then s.refreshes + 1 else s.refreshes }
    | .didTab tab => some { s with userSelect := tab.category }
    | .cellForItemAt sectionIndex row =>
      if row < s.home.numberOfItemsInSection s.userSelect sectionIndex then
        if sectionIndex = 0 then some (s.configure (s.request sectionIndex row))
        else some { s with blocks := s.blocks ++ [s.request sectionIndex row] }
      else none
    | .block =>
      match s.blocks with
      | [] => none
      | r :: blocks => some ({ s with blocks := blocks }.configure r)

variable {sort : FeedSort}

/-- What an event can do to a screen that has not crashed. -/
theorem step_cases {s s' : HomeScreen} {e : HomeScreenEvent} (h : s.step sort e = some s') :
    s.crashed = false ∧
    ((∃ store ev home, e = .home store ev ∧ s.home.step sort store ev = some home ∧
      s' = { s with
        home := home
        refreshes := if ev = .wantRefresh then s.refreshes + 1 else s.refreshes }) ∨
    (∃ tab, e = .didTab tab ∧ s' = { s with userSelect := tab.category }) ∨
    (∃ sectionIndex row, e = .cellForItemAt sectionIndex row ∧
      row < s.home.numberOfItemsInSection s.userSelect sectionIndex ∧
      s' = if sectionIndex = 0 then s.configure (s.request sectionIndex row)
        else { s with blocks := s.blocks ++ [s.request sectionIndex row] }) ∨
    (∃ r blocks, e = .block ∧ s.blocks = r :: blocks ∧
      s' = { s with blocks := blocks }.configure r)) := by
  unfold step at h
  split at h
  next => cases h
  next hcrashed =>
    refine ⟨Bool.eq_false_iff.mpr hcrashed, ?_⟩
    cases e with
    | home store ev =>
      obtain ⟨home, hhome, rfl⟩ := Option.map_eq_some_iff.mp h
      exact .inl ⟨store, ev, home, rfl, hhome, rfl⟩
    | didTab tab => exact .inr (.inl ⟨tab, rfl, (Option.some.inj h).symm⟩)
    | cellForItemAt sectionIndex row =>
      obtain ⟨hrow, h⟩ := Option.ite_none_right_eq_some.mp h
      refine .inr (.inr (.inl ⟨sectionIndex, row, rfl, hrow, ?_⟩))
      rw [← apply_ite some] at h
      exact (Option.some.inj h).symm
    | block =>
      cases hblocks : s.blocks with
      | nil =>
        rw [hblocks] at h
        cases h
      | cons r blocks =>
        rw [hblocks] at h
        exact .inr (.inr (.inr ⟨r, blocks, rfl, rfl, (Option.some.inj h).symm⟩))

/-- A row that is counted has a cartoon. -/
theorem exists_counted {s : HomeScreen} {sectionIndex row : Nat}
    (h : row < s.home.numberOfItemsInSection s.userSelect sectionIndex) :
    ∃ c, (s.request sectionIndex row).counted = some c := by
  rw [Home.numberOfItemsInSection] at h
  show ∃ c, s.home.cellForItemAt s.userSelect sectionIndex row = some c
  rw [Home.cellForItemAt]
  split at h
  next htop => exact ⟨_, by rw [if_pos htop, List.getElem?_eq_getElem h]⟩
  next htop =>
    rw [if_neg htop]
    cases hsel : s.home.selected? s.userSelect with
    | none =>
      rw [hsel] at h
      exact absurd h (Nat.not_lt_zero _)
    | some cartoons =>
      rw [hsel] at h
      exact ⟨_, by rw [Option.bind_some, List.getElem?_eq_getElem h]⟩

/-! ## From the request to the block -/

/-- `c` was counted for request `r`, and `n` is the number of refreshes by now:
the list of a type has grown without `c`, and so has `cartoons`, unless there
was a refresh, after which `c` is not in it. -/
structure Tracked (r : CellRequest) (c : Cartoon) (h : Home) (n : Nat) : Prop where
  shelf : c ∈ h.toons c.category
  toons : ∀ k, GrewWithout c (r.home.toons k) (h.toons k)
  refreshes : r.refreshes ≤ n
  cartoons : r.refreshes = n → GrewWithout c r.home.cartoons h.cartoons
  cleared : r.refreshes < n → c ∉ h.cartoons

/-- A cartoon in section 1 is on its shelf. -/
theorem Tracked.request {s : HomeScreen} {sectionIndex row : Nat} {c : Cartoon} {tab : HomeTab}
    (ht : s.home.Tidy) (htab : s.userSelect = tab.category) (hsection : sectionIndex ≠ 0)
    (hc : (s.request sectionIndex row).counted = some c) :
    Tracked (s.request sectionIndex row) c s.home s.refreshes where
  shelf := by
    change s.home.cellForItemAt s.userSelect sectionIndex row = some c at hc
    rw [Home.cellForItemAt, if_neg hsection, htab] at hc
    rcases Home.selected?_cases tab with ⟨-, hsel⟩ | ⟨k, -, -, hsel⟩
    · rw [hsel, Option.bind_some] at hc
      exact (ht.shown c (List.mem_of_getElem? hc)).2
    · rw [hsel, Option.bind_some] at hc
      have hmem := List.mem_of_getElem? hc
      exact (ht.shelved.key k c hmem).symm ▸ hmem
  toons k := .refl c _
  refreshes := le_refl _
  cartoons _ := .refl c _
  cleared h := absurd h (lt_irrefl _)

variable {r : CellRequest} {c : Cartoon} {h : Home} {n : Nat}

theorem Tracked.wantRefresh (ht : Tracked r c h n) : Tracked r c h.wantRefresh (n + 1) where
  shelf := by
    rw [Home.toons_wantRefresh]
    exact ht.shelf
  toons := by
    rw [Home.toons_wantRefresh]
    exact ht.toons
  refreshes := Nat.le_succ_of_le ht.refreshes
  cartoons hn := absurd ht.refreshes (by omega)
  cleared _ := by
    rw [Home.cartoons_wantRefresh]
    exact List.not_mem_nil

/-- `c` is on its shelf, so whatever is placed is something else or not new. -/
theorem Tracked.place (ht : Tracked r c h n) (x : Cartoon) : Tracked r c (h.place x) n where
  shelf := by
    rw [Home.toons_place]
    exact Lib.mem_shelve.mpr (.inl ht.shelf)
  toons k := by
    rw [Home.toons_place]
    exact (ht.toons k).trans (.shelve ht.shelf x k)
  refreshes := ht.refreshes
  cartoons hn := by
    rw [Home.cartoons_place]
    split
    next => exact ht.cartoons hn
    next hnew =>
      refine (ht.cartoons hn).trans (.concat ?_ _)
      rintro rfl
      exact hnew (.inr ht.shelf)
  cleared hn := by
    rw [Home.cartoons_place]
    split
    next => exact ht.cleared hn
    next hnew =>
      refine fun hmem => (List.mem_append.mp hmem).elim (ht.cleared hn) fun hx => ?_
      obtain rfl := List.mem_singleton.mp hx
      exact hnew (.inr ht.shelf)

theorem Tracked.receive (ht : Tracked r c h n) (cartoons : List Cartoon) :
    Tracked r c (h.receive cartoons) n := by
  induction cartoons generalizing h with
  | nil => exact ht
  | cons x xs ih => exact ih (ht.place x)

/-- The row of the request has `c` now if it had `c` then, in the list that is
selected now. -/
theorem Tracked.cellForItemAt_iff (ht : Tracked r c h n) (hsection : r.sectionIndex ≠ 0)
    (tab : HomeTab) :
    h.cellForItemAt tab.category r.sectionIndex r.row = some c ↔
      r.home.cellForItemAt tab.category r.sectionIndex r.row = some c ∧
      (tab.category = "ALL" → r.refreshes = n) := by
  rw [Home.cellForItemAt, if_neg hsection, Home.cellForItemAt, if_neg hsection]
  rcases Home.selected?_cases tab with ⟨hall, hsel⟩ | ⟨k, -, hk, hsel⟩
  · rw [hsel, hsel, Option.bind_some, Option.bind_some]
    rcases Nat.eq_or_lt_of_le ht.refreshes with hn | hn
    · rw [(ht.cartoons hn).getElem?_iff, and_iff_left fun _ => hn]
    · exact iff_of_false (fun hrow => ht.cleared hn (List.mem_of_getElem? hrow))
        fun hrow => absurd (hrow.2 hall) (Nat.ne_of_lt hn)
  · have hne : tab.category ≠ "ALL" := fun hall => k.name_ne_all (hk.symm.trans hall)
    rw [hsel, hsel, Option.bind_some, Option.bind_some, (ht.toons k).getElem?_iff,
      and_iff_left fun hall => absurd hall hne]

/-! ## The invariant -/

/-- The lists are tidy, some button was tapped last, and every block on the queue
waits to show a cartoon that was counted. -/
structure Sound (s : HomeScreen) : Prop where
  tidy : s.home.Tidy
  tab : ∃ tab : HomeTab, s.userSelect = tab.category
  blocks : ∀ r ∈ s.blocks, r.sectionIndex ≠ 0 ∧
    ∃ c, r.counted = some c ∧ Tracked r c s.home s.refreshes

theorem Sound.viewDidLoad (preset : Option Cartoon) : (viewDidLoad preset).Sound :=
  ⟨.viewDidLoad preset, ⟨.all, rfl⟩, nofun⟩

theorem Sound.configure {s : HomeScreen} (hs : s.Sound) (r : CellRequest) :
    (s.configure r).Sound := by
  unfold HomeScreen.configure
  split
  next => exact ⟨hs.tidy, hs.tab, hs.blocks⟩
  next => exact ⟨hs.tidy, hs.tab, hs.blocks⟩

theorem Sound.step {s s' : HomeScreen} {e : HomeScreenEvent} (hs : s.Sound)
    (hstep : s.step sort e = some s') : s'.Sound := by
  obtain ⟨-, ⟨store, ev, home, -, hhome, rfl⟩ | ⟨tab, -, rfl⟩ | ⟨sectionIndex, row, -, hrow, rfl⟩ |
    ⟨r, blocks, -, hblocks, rfl⟩⟩ := step_cases hstep
  · refine ⟨hs.tidy.step hhome, hs.tab, fun r hr => ⟨(hs.blocks r hr).1, ?_⟩⟩
    obtain ⟨c, hc, ht⟩ := (hs.blocks r hr).2
    refine ⟨c, hc, ?_⟩
    rcases hs.tidy.step_cases hhome with ⟨rfl, rfl⟩ | ⟨hev, loads, rfl⟩
    · rw [if_pos rfl]
      exact ht.wantRefresh
    · rw [if_neg hev]
      have hreceive := ht.receive (ev.brings store).toList
      exact ⟨hreceive.shelf, hreceive.toons, hreceive.refreshes, hreceive.cartoons,
        hreceive.cleared⟩
  · exact ⟨hs.tidy, ⟨tab, rfl⟩, hs.blocks⟩
  · split
    next => exact hs.configure _
    next hsection =>
      refine ⟨hs.tidy, hs.tab, fun r' hr' => ?_⟩
      rcases List.mem_append.mp hr' with hr' | hr'
      · exact hs.blocks r' hr'
      · -- the request is made on this very screen
        obtain rfl := List.mem_singleton.mp hr'
        obtain ⟨c, hc⟩ := exists_counted hrow
        obtain ⟨tab, htab⟩ := hs.tab
        exact ⟨hsection, c, hc, .request hs.tidy htab hsection hc⟩
  · have hrest : Sound { s with blocks := blocks } :=
      ⟨hs.tidy, hs.tab, fun r' hr' => hs.blocks r' (hblocks ▸ List.mem_cons_of_mem r hr')⟩
    exact hrest.configure r

/-! ## What the cells show -/

/-- No index was out of range, and every cell shows what was counted. -/
def Faithful (s : HomeScreen) : Prop :=
  s.crashed = false ∧ ∀ x ∈ s.configured, x.1.counted = some x.2

/-- A block that runs now: the list selected now had the counted cartoon at the
row when the cell was requested, and if it is "ALL", there was no refresh since.
No condition on the other events. -/
def Undisturbed (s : HomeScreen) : HomeScreenEvent → Prop
  | .block => ∀ r ∈ s.blocks.head?,
    r.home.cellForItemAt s.userSelect r.sectionIndex r.row = r.counted ∧
      (s.userSelect = "ALL" → r.refreshes = s.refreshes)
  | _ => True

instance (s : HomeScreen) : ∀ e, Decidable (s.Undisturbed e)
  | .block => inferInstanceAs (Decidable (∀ r ∈ s.blocks.head?,
      r.home.cellForItemAt s.userSelect r.sectionIndex r.row = r.counted ∧
        (s.userSelect = "ALL" → r.refreshes = s.refreshes)))
  | .home .. | .didTab .. | .cellForItemAt .. => .isTrue trivial

theorem faithful_configure {s : HomeScreen} {r : CellRequest} (hcrashed : s.crashed = false)
    (hr : r.counted = some c) :
    (s.configure r).Faithful ↔ s.Faithful ∧
      s.home.cellForItemAt s.userSelect r.sectionIndex r.row = some c := by
  unfold configure
  split
  next hnone =>
    rw [hnone]
    exact iff_of_false nofun nofun
  next x hsome =>
    rw [hsome, Faithful, Faithful]
    simp only [List.mem_append, List.mem_singleton, or_imp, forall_and, forall_eq, hr, hcrashed,
      true_and, Option.some_inj]
    exact and_congr_right fun _ => eq_comm

/-- The step lemma: a block that is disturbed crashes or shows something else,
and neither is ever made good. -/
theorem faithful_step {s s' : HomeScreen} {e : HomeScreenEvent} (hs : s.Sound)
    (hstep : s.step sort e = some s') : s'.Faithful ↔ s.Faithful ∧ s.Undisturbed e := by
  obtain ⟨hcrashed, ⟨store, ev, home, rfl, -, rfl⟩ | ⟨tab, rfl, rfl⟩ |
    ⟨sectionIndex, row, rfl, hrow, rfl⟩ | ⟨r, blocks, rfl, hblocks, rfl⟩⟩ := step_cases hstep
  · exact (and_iff_left trivial).symm
  · exact (and_iff_left trivial).symm
  · rw [and_iff_left (show s.Undisturbed (.cellForItemAt ..) from trivial)]
    split
    next hsection =>
      -- section 0 is configured at once
      obtain ⟨c, hc⟩ := exists_counted hrow
      exact (faithful_configure hcrashed hc).trans (and_iff_left hc)
    next => rfl
  · obtain ⟨hsection, c, hc, ht⟩ := hs.blocks r (hblocks ▸ List.mem_cons_self)
    obtain ⟨tab, htab⟩ := hs.tab
    rw [faithful_configure (s := { s with blocks := blocks }) hcrashed hc]
    simp only [Undisturbed, hblocks, List.head?_cons, Option.mem_some_iff, forall_eq', hc, htab,
      ht.cellForItemAt_iff hsection]
    exact Iff.rfl

end HomeScreen

/-- Requests for cells of either section and the blocks of section 1, in every
run of refreshes, answers from stores that may change, taps on the header and
blocks: every block stays in range and every cell is configured with the cartoon
that was counted at its row when it was requested, if and only if no block of
the run was disturbed. -/
theorem cells_faithful_iff (sort : FeedSort) (preset : Option Cartoon)
    (es : List HomeScreenEvent) (t : HomeScreen)
    (h : run (HomeScreen.step sort) (HomeScreen.viewDidLoad preset) es = some t) :
    t.Faithful ↔
      Along (HomeScreen.step sort) HomeScreen.Undisturbed (HomeScreen.viewDidLoad preset) es := by
  have hiff := run_iff_along (fun _ _ _ hs => HomeScreen.Sound.step hs)
    (fun _ _ _ hs => HomeScreen.faithful_step hs) es (HomeScreen.Sound.viewDidLoad preset) h
  rw [hiff]
  exact and_iff_right ⟨rfl, fun _ hx => absurd hx List.not_mem_nil⟩

/-- All answers of the first load of `twoCartoons`. -/
def loaded : List HomeScreenEvent := (loadAnswers 0).map (.home twoCartoons)

/-- `cells_faithful_iff` for a tap between request and block that selects a list
with the same cartoon. -/
theorem cells_faithful_iff_daily :
    ∃ t, run (HomeScreen.step .insertion) (HomeScreen.viewDidLoad none)
        (loaded ++ [.cellForItemAt 0 0, .cellForItemAt 1 0, .didTab .daily, .block]) = some t ∧
      t.configured.length = 2 ∧ t.Faithful := by
  have h : run (HomeScreen.step .insertion) (HomeScreen.viewDidLoad none)
      (loaded ++ [.cellForItemAt 0 0, .cellForItemAt 1 0, .didTab .daily, .block]) =
        some ((run (HomeScreen.step .insertion) (HomeScreen.viewDidLoad none)
          (loaded ++ [.cellForItemAt 0 0, .cellForItemAt 1 0, .didTab .daily, .block])).get
            (by decide)) := (Option.some_get _).symm
  exact ⟨_, h, by decide, (cells_faithful_iff .insertion none _ _ h).mpr (by decide)⟩

/-- A refresh between request and block: the list is empty when it is read. -/
theorem cells_out_of_range :
    ∃ t, run (HomeScreen.step .insertion) (HomeScreen.viewDidLoad none)
        (loaded ++ [.cellForItemAt 1 0, .home twoCartoons .wantRefresh, .block]) = some t ∧
      t.crashed = true :=
  ⟨(run (HomeScreen.step .insertion) (HomeScreen.viewDidLoad none)
    (loaded ++ [.cellForItemAt 1 0, .home twoCartoons .wantRefresh, .block])).get (by decide),
    (Option.some_get _).symm, by decide⟩

/-! ## What a tap on a cell opens -/

namespace HomeScreen

/-- Every counted row opens the cartoon that it shows. -/
def Opens (s : HomeScreen) : Prop :=
  ∀ sectionIndex row, row < s.home.numberOfItemsInSection s.userSelect sectionIndex →
    ∃ c, s.home.didSelectItemAt sectionIndex row = some c ∧
      s.home.cellForItemAt s.userSelect sectionIndex row = some c

/-- The delegate reads `cartoons`, whatever is selected. -/
theorem opens_iff (s : HomeScreen) :
    s.Opens ↔ ∀ cartoons ∈ s.home.selected? s.userSelect, cartoons <+: s.home.cartoons := by
  unfold Opens Home.numberOfItemsInSection Home.didSelectItemAt Home.cellForItemAt
  constructor
  · intro hopens cartoons hsel
    rw [Option.mem_def] at hsel
    refine rows_agree_iff.mp fun row hrow => ?_
    have h := hopens 1 row
    simp only [Nat.one_ne_zero, if_false, hsel, Option.map_some, Option.getD_some,
      Option.bind_some] at h
    exact h hrow
  · intro hpre sectionIndex row hrow
    split_ifs at hrow ⊢ with htop
    · exact ⟨_, List.getElem?_eq_getElem hrow, List.getElem?_eq_getElem hrow⟩
    · cases hsel : s.home.selected? s.userSelect with
      | none =>
        rw [hsel] at hrow
        exact absurd hrow (Nat.not_lt_zero row)
      | some cartoons =>
        rw [hsel] at hrow
        exact rows_agree_iff.mpr (hpre cartoons hsel) row hrow

/-- A tap on a button whose list `cartoons` begins with; a refresh while "ALL" or
an empty list is selected; an answer that brings no cartoon for the list that is
selected, or brings one while all of `cartoons` is of that type. No condition on
cells. -/
def KeepsRows (s : HomeScreen) : HomeScreenEvent → Prop
  | .didTab tab => ∀ cartoons ∈ s.home.selected? tab.category, cartoons <+: s.home.cartoons
  | .home _ .wantRefresh =>
    s.userSelect ≠ "ALL" → ∀ cartoons ∈ s.home.selected? s.userSelect, cartoons = []
  | .home store (.answer i e) => ∀ c ∈ (HomeEvent.answer i e).brings store,
    c.category.name = s.userSelect → c ∉ s.home.toons c.category →
      ∀ x ∈ s.home.cartoons, x.category = c.category
  | .cellForItemAt .. | .block => True

instance (s : HomeScreen) : ∀ e, Decidable (s.KeepsRows e)
  | .didTab tab => inferInstanceAs (Decidable
      (∀ cartoons ∈ s.home.selected? tab.category, cartoons <+: s.home.cartoons))
  | .home _ .wantRefresh => inferInstanceAs (Decidable
      (s.userSelect ≠ "ALL" → ∀ cartoons ∈ s.home.selected? s.userSelect, cartoons = []))
  | .home store (.answer i e) => inferInstanceAs (Decidable
      (∀ c ∈ (HomeEvent.answer i e).brings store, c.category.name = s.userSelect →
        c ∉ s.home.toons c.category → ∀ x ∈ s.home.cartoons, x.category = c.category))
  | .cellForItemAt .. | .block => .isTrue trivial

/-- A cartoon that comes in, while the list of type `k` is selected and `cartoons`
begins with it. -/
theorem prefix_place_iff {h : Home} (ht : h.Tidy) {k : Category} (hk : k ≠ .recom)
    (hpre : h.toons k <+: h.cartoons) (c : Cartoon) :
    (h.place c).toons k <+: (h.place c).cartoons ↔
      (c.category = k → c ∉ h.toons k → ∀ x ∈ h.cartoons, x.category = k) := by
  rw [Home.toons_place, Home.cartoons_place, Lib.shelve]
  by_cases hc : c.category = k
  · by_cases hmem : c ∈ h.toons k
    · rw [if_pos hc, Lib.gather_of_mem hmem, if_pos (.inr (hc ▸ hmem))]
      exact iff_of_true hpre fun _ hnew => absurd hmem hnew
    · have hnew : c ∉ h.cartoons := fun h => hmem (hc ▸ (ht.shown c h).2)
      rw [if_pos hc, Lib.gather_of_not_mem hmem, if_neg (by simp [hc, hk, hmem]), id_eq,
        concat_prefix_concat hpre hnew]
      -- both lists get `c` at the end, so they have to be the same
      constructor
      · intro heq _ _ x hx
        exact ht.shelved.key k x (heq ▸ hx)
      · intro hall
        refine eq_of_prefix_of_subset hpre ht.nodup fun x hx => ?_
        exact hall hc hmem x hx ▸ (ht.shown x hx).2
  · rw [if_neg hc]
    refine iff_of_true (hpre.trans ?_) fun h => absurd h hc
    split
    · exact List.prefix_rfl
    · exact List.prefix_append _ _

theorem opens_configure (s : HomeScreen) (r : CellRequest) : (s.configure r).Opens ↔ s.Opens := by
  unfold configure
  split <;> rfl

/-- The step lemma: in a state whose rows open what they show, the next state is
one if and only if the event keeps the rows. -/
theorem opens_step {s s' : HomeScreen} {e : HomeScreenEvent} (hs : s.Sound) (ho : s.Opens)
    (hstep : s.step sort e = some s') : s'.Opens ↔ s.KeepsRows e := by
  obtain ⟨-, ⟨store, ev, home, rfl, hhome, rfl⟩ | ⟨tab, rfl, rfl⟩ |
    ⟨sectionIndex, row, rfl, -, rfl⟩ | ⟨r, blocks, rfl, -, rfl⟩⟩ := step_cases hstep
  · obtain ⟨tab, htab⟩ := hs.tab
    have hpre := (opens_iff s).mp ho
    rw [opens_iff]
    rcases Home.selected?_cases tab with ⟨hall, hsel⟩ | ⟨k, hk, hname, hsel⟩
    · -- "ALL" shows the list that the delegate reads
      simp only [htab, hsel, Option.mem_some_iff, forall_eq']
      refine iff_of_true List.prefix_rfl ?_
      cases ev with
      | wantRefresh => exact fun hne => absurd (htab.trans hall) hne
      | answer i ev =>
        exact fun c _ hc => absurd (hc.trans (htab.trans hall)) c.category.name_ne_all
    · simp only [htab, hsel, Option.mem_some_iff, forall_eq'] at hpre ⊢
      rcases hs.tidy.step_cases hhome with ⟨rfl, rfl⟩ | ⟨hev, loads, rfl⟩
      · rw [Home.toons_wantRefresh, Home.cartoons_wantRefresh, List.prefix_nil]
        simp only [KeepsRows, htab, hsel, Option.mem_some_iff, forall_eq']
        have hne : tab.category ≠ "ALL" := hname ▸ k.name_ne_all
        exact (imp_iff_right hne).symm
      · cases ev with
        | wantRefresh => exact absurd rfl hev
        | answer i ev =>
          simp only [KeepsRows, htab, hname]
          cases hbrings : (HomeEvent.answer i ev).brings store with
          | none => exact iff_of_true hpre nofun
          | some c =>
            simp only [Option.mem_some_iff, forall_eq']
            refine (prefix_place_iff hs.tidy hk hpre c).trans ?_
            constructor
            · intro h hc
              obtain rfl := Category.name_inj hc
              exact h rfl
            · rintro h rfl
              exact h rfl
  · exact opens_iff _
  · refine iff_of_true ?_ trivial
    split
    · exact (opens_configure s _).mpr ho
    · exact ho
  · exact iff_of_true ((opens_configure { s with blocks := blocks } r).mpr ho) trivial

end HomeScreen

/-- The rows of both sections, in every run of a screen that is opened with or
without a preset cartoon: in every state of the run a tap on any counted row
stays in range and opens the cartoon shown there, if and only if every event of
the run kept the rows. -/
theorem rows_open_iff (sort : FeedSort) (preset : Option Cartoon) (es : List HomeScreenEvent)
    (t : HomeScreen)
    (h : run (HomeScreen.step sort) (HomeScreen.viewDidLoad preset) es = some t) :
    (∀ es₁ es₂ u, es = es₁ ++ es₂ →
      run (HomeScreen.step sort) (HomeScreen.viewDidLoad preset) es₁ = some u → u.Opens) ↔
      Along (HomeScreen.step sort) HomeScreen.KeepsRows (HomeScreen.viewDidLoad preset) es := by
  refine run_always_iff_along (fun _ _ _ hs => HomeScreen.Sound.step hs)
    (fun _ _ _ hs ho => HomeScreen.opens_step hs ho) es (.viewDidLoad preset) ?_ h
  exact (HomeScreen.opens_iff _).mpr fun cartoons hsel => by
    obtain rfl := Option.some.inj hsel
    exact List.prefix_rfl

/-- `rows_open_iff` for a tap on the button of the only type. -/
theorem rows_open_iff_daily :
    ∃ t, run (HomeScreen.step .insertion) (HomeScreen.viewDidLoad none)
        (loaded ++ [.didTab .daily]) = some t ∧ t.Opens := by
  have h : run (HomeScreen.step .insertion) (HomeScreen.viewDidLoad none)
      (loaded ++ [.didTab .daily]) =
        some ((run (HomeScreen.step .insertion) (HomeScreen.viewDidLoad none)
          (loaded ++ [.didTab .daily])).get (by decide)) := (Option.some_get _).symm
  exact ⟨_, h, (rows_open_iff .insertion none _ _ h).mpr (by decide) _ [] _
    (List.append_nil _).symm h⟩

/-- A cartoon of the type DAILY and one of the type LOVE. -/
def dailyAndLove : CartoonStore :=
  let user := User.init .empty
  let url := Vector.replicate 5 ""
  (CartoonStore.empty.upload "author" ⟨"Monday", "", "DAILY", user, url, ⟨1, 0⟩, "c"⟩).upload
    "author" ⟨"Tuesday", "", "LOVE", user, url, ⟨2, 0⟩, "d"⟩

/-- The daily cartoon is the first of all, the other the only one of its type. -/
def loveSelected : List HomeScreenEvent :=
  [.home dailyAndLove (.answer 0 (.documents ⟨true, "", ⟨3, 0⟩⟩)),
    .home dailyAndLove (.answer 0 (.document "c" ⟨true, "", ⟨4, 0⟩⟩)),
    .home dailyAndLove (.answer 0 (.document "d" ⟨true, "", ⟨5, 0⟩⟩)), .didTab .love]

/-- The first row of LOVE opens the daily cartoon. -/
theorem rows_open_other :
    ∃ t, run (HomeScreen.step .insertion) (HomeScreen.viewDidLoad none) loveSelected = some t ∧
      ¬ t.Opens := by
  refine ⟨(run (HomeScreen.step .insertion) (HomeScreen.viewDidLoad none) loveSelected).get
    (by decide), (Option.some_get _).symm, fun hopens => ?_⟩
  obtain ⟨c, hopened, hshown⟩ := hopens 1 0 (by decide)
  exact absurd (hopened.trans hshown.symm) (by decide)

end Toontagram
