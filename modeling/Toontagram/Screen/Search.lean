import Toontagram.Lib.Rows
import Toontagram.Lib.Run
import Toontagram.Api.Call

/-!
# The search screen

`SearchViewController`: a table of all users, or, while there is a search text,
of `usersFillter`, which `updateSearchResults` computes from the users that are
loaded at that time. The users come once, whenever the query is answered. The
search bar tells the screen that something has changed by `updateSearchResults`;
`pending` says that it has yet to do so. An empty bar reads back as an empty
text, `nil` included.

`String.contains` is a parameter: nothing below depends on what it finds.
-/

namespace Toontagram

open Lib (Along filter_prefix_iff rows rows_getElem? rows_agree_iff run run_always_iff_along)

/-- `UserService.fetchUsers(completion:)`: what its completion gets, if there is a
snapshot. -/
def UserService.fetchUsers (snapshot : Option (List (DocID × Dictionary))) : Option (List User) :=
  snapshot.map fun documents => documents.map fun document => User.init document.2

/-- The table of the screen and its search bar. -/
structure SearchScreen where
  users : List User := []
  usersFillter : List User := []
  isActive : Bool := false
  text : String := ""
  fetching : Bool := true
  pending : Bool := false
deriving DecidableEq, Repr

/-- What happens to the screen. -/
inductive SearchEvent where
  | fetchUsers (snapshot : Option (List (DocID × Dictionary)))
  | searchBarTextDidBeginEditing
  | textDidChange (searchText : String)
  | updateSearchResults
  | searchBarCancelButtonClicked

/-- The closure of the filter in `updateSearchResults`. -/
def User.found (contains : String → String → Bool) (searchText : String) (user : User) : Bool :=
  contains user.name searchText || contains user.penname searchText

namespace SearchScreen

def searchMode (s : SearchScreen) : Bool := s.isActive && s.text != ""

/-- `tableView(_:numberOfRowsInSection:)`. -/
def numberOfRowsInSection (s : SearchScreen) : Nat :=
  if s.searchMode then s.usersFillter.length else s.users.length

/-- The user that `tableView(_:cellForRowAt:)` shows. -/
def cellForRowAt (s : SearchScreen) (row : Nat) : Option User :=
  if s.searchMode then s.usersFillter[row]? else s.users[row]?

/-- The user whose profile `tableView(_:didSelectRowAt:)` opens; `none` where it
traps. -/
def didSelectRowAt (s : SearchScreen) (row : Nat) : Option User := s.users[row]?

/-- The users are fetched once; the bar is edited and cancelled while it is
active. -/
def step (contains : String → String → Bool) (s : SearchScreen) :
    SearchEvent → Option SearchScreen
  | .fetchUsers snapshot =>
    if s.fetching then
      match UserService.fetchUsers snapshot with
      | none => some { s with fetching := false }
      | some users => some { s with users := users, fetching := false }
    else none
  | .searchBarTextDidBeginEditing => some { s with isActive := true, pending := true }
  | .textDidChange searchText =>
    if s.isActive then some { s with text := searchText, pending := true } else none
  | .updateSearchResults =>
    some { s with usersFillter := s.users.filter (User.found contains s.text), pending := false }
  | .searchBarCancelButtonClicked =>
    if s.isActive then some { s with isActive := false, text := "", pending := true } else none

variable {contains : String → String → Bool}

/-! ## The invariant -/

/-- There is nothing to show before the users are fetched, and no text in a bar
that is not active. -/
structure Sound (s : SearchScreen) : Prop where
  fetching : s.fetching = true → s.users = [] ∧ s.usersFillter = []
  text : s.isActive = false → s.text = ""

theorem Sound.start : Sound {} := ⟨fun _ => ⟨rfl, rfl⟩, fun _ => rfl⟩

/-- What an event can do. -/
theorem step_cases {s s' : SearchScreen} {e : SearchEvent} (h : s.step contains e = some s') :
    (e = .fetchUsers none ∧ s' = { s with fetching := false }) ∨
    (∃ documents, e = .fetchUsers (some documents) ∧ s.fetching = true ∧
      s' = { s with
        users := documents.map fun document => User.init document.2
        fetching := false }) ∨
    (e = .searchBarTextDidBeginEditing ∧ s' = { s with isActive := true, pending := true }) ∨
    (∃ searchText, e = .textDidChange searchText ∧ s.isActive = true ∧
      s' = { s with text := searchText, pending := true }) ∨
    (e = .updateSearchResults ∧ s' = { s with
      usersFillter := s.users.filter (User.found contains s.text), pending := false }) ∨
    (e = .searchBarCancelButtonClicked ∧
      s' = { s with isActive := false, text := "", pending := true }) := by
  cases e with
  | fetchUsers snapshot =>
    obtain ⟨hfetching, h⟩ := Option.ite_none_right_eq_some.mp h
    cases snapshot with
    | none => exact .inl ⟨rfl, (Option.some.inj h).symm⟩
    | some documents => exact .inr (.inl ⟨documents, rfl, hfetching, (Option.some.inj h).symm⟩)
  | searchBarTextDidBeginEditing => exact .inr (.inr (.inl ⟨rfl, (Option.some.inj h).symm⟩))
  | textDidChange searchText =>
    obtain ⟨hactive, h⟩ := Option.ite_none_right_eq_some.mp h
    exact .inr (.inr (.inr (.inl ⟨searchText, rfl, hactive, (Option.some.inj h).symm⟩)))
  | updateSearchResults =>
    exact .inr (.inr (.inr (.inr (.inl ⟨rfl, (Option.some.inj h).symm⟩))))
  | searchBarCancelButtonClicked =>
    obtain ⟨-, h⟩ := Option.ite_none_right_eq_some.mp h
    exact .inr (.inr (.inr (.inr (.inr ⟨rfl, (Option.some.inj h).symm⟩))))

theorem Sound.step {s s' : SearchScreen} {e : SearchEvent} (hs : s.Sound)
    (hstep : s.step contains e = some s') : s'.Sound := by
  rcases step_cases hstep with ⟨-, rfl⟩ | ⟨documents, -, hfetching, rfl⟩ | ⟨-, rfl⟩ |
    ⟨searchText, -, hactive, rfl⟩ | ⟨-, rfl⟩ | ⟨-, rfl⟩
  · exact ⟨nofun, hs.text⟩
  · exact ⟨nofun, hs.text⟩
  · exact ⟨hs.fetching, nofun⟩
  · exact ⟨hs.fetching, fun h => absurd (hactive.symm.trans h) nofun⟩
  · refine ⟨fun h => ⟨(hs.fetching h).1, ?_⟩, hs.text⟩
    show s.users.filter _ = []
    rw [(hs.fetching h).1]
    rfl
  · exact ⟨hs.fetching, fun _ => rfl⟩

/-! ## What the table shows -/

/-- The rows of the table. -/
def shown (s : SearchScreen) : List User := rows s.numberOfRowsInSection s.cellForRowAt

theorem shown_eq (s : SearchScreen) :
    s.shown = if s.searchMode then s.usersFillter else s.users := by
  unfold shown numberOfRowsInSection cellForRowAt
  cases s.searchMode with
  | false => exact rows_getElem? s.users
  | true => exact rows_getElem? s.usersFillter

/-- In search mode, and unless the bar has something to tell, the table shows the
loaded users that the text is found in. -/
def ShowsFound (contains : String → String → Bool) (s : SearchScreen) : Prop :=
  s.pending = false → s.searchMode = true → s.shown = s.users.filter (User.found contains s.text)

/-- Users that are fetched while a text is in the bar, and nothing pending: the
text is found in none of them. No condition on other events. -/
def FetchesNone (contains : String → String → Bool) (s : SearchScreen) : SearchEvent → Prop
  | .fetchUsers (some documents) => s.pending = false → s.searchMode = true →
    ∀ document ∈ documents, (User.init document.2).found contains s.text = false
  | _ => True

instance (s : SearchScreen) : ∀ e, Decidable (s.FetchesNone contains e)
  | .fetchUsers (some documents) => inferInstanceAs (Decidable
      (s.pending = false → s.searchMode = true →
        ∀ document ∈ documents, (User.init document.2).found contains s.text = false))
  | .fetchUsers none | .searchBarTextDidBeginEditing | .textDidChange _ | .updateSearchResults
  | .searchBarCancelButtonClicked => .isTrue trivial

/-- The step lemma: the filter is not computed again when the users come. -/
theorem showsFound_step {s s' : SearchScreen} {e : SearchEvent} (hs : s.Sound)
    (hshows : s.ShowsFound contains) (hstep : s.step contains e = some s') :
    s'.ShowsFound contains ↔ s.FetchesNone contains e := by
  rcases step_cases hstep with ⟨rfl, rfl⟩ | ⟨documents, rfl, hfetching, rfl⟩ | ⟨rfl, rfl⟩ |
    ⟨searchText, rfl, -, rfl⟩ | ⟨rfl, rfl⟩ | ⟨rfl, rfl⟩
  · exact iff_of_true hshows trivial
  · obtain ⟨-, hfillter⟩ := hs.fetching hfetching
    unfold ShowsFound FetchesNone
    refine forall_congr' fun hpending => forall_congr' fun hmode => ?_
    have hmode' : SearchScreen.searchMode { s with
        users := documents.map fun document => User.init document.2
        fetching := false } = true := hmode
    rw [shown_eq, if_pos hmode']
    show s.usersFillter = (documents.map fun document => User.init document.2).filter
      (User.found contains s.text) ↔ _
    rw [hfillter, eq_comm, List.filter_eq_nil_iff]
    simp only [List.forall_mem_map, Bool.not_eq_true]
  · exact iff_of_true nofun trivial
  · exact iff_of_true nofun trivial
  · refine iff_of_true (fun _ hmode => ?_) trivial
    rw [shown_eq, if_pos hmode]
  · exact iff_of_true nofun trivial

end SearchScreen

/-- The table in every run of the search screen, users, typing and cancelling in
any order: in every state of the run that is in search mode with nothing pending
it shows exactly the loaded users that the text is found in, each once and in
the order in which they were loaded, if and only if users that came in such a
state were none of them. -/
theorem shows_found_iff (contains : String → String → Bool) (es : List SearchEvent)
    (t : SearchScreen) (h : run (SearchScreen.step contains) {} es = some t) :
    (∀ es₁ es₂ u, es = es₁ ++ es₂ → run (SearchScreen.step contains) {} es₁ = some u →
      u.pending = false → u.searchMode = true →
      u.shown = u.users.filter (User.found contains u.text)) ↔
      Along (SearchScreen.step contains) (SearchScreen.FetchesNone contains) {} es :=
  run_always_iff_along (fun _ _ _ hs => SearchScreen.Sound.step hs)
    (fun _ _ _ hs hq => SearchScreen.showsFound_step hs hq) es .start nofun h

/-- `String.contains` on texts without combining characters. -/
def plainContains (text searchText : String) : Bool :=
  decide (searchText.toList <:+: text.toList)

/-- The documents of two users. -/
def annaAndBen : List (DocID × Dictionary) :=
  [("a", .ofList [("name", .string "anna"), ("penname", .string "a")]),
    ("b", .ofList [("name", .string "ben"), ("penname", .string "b")])]

/-- A search when the users are loaded. -/
def searchFor (searchText : String) : List SearchEvent :=
  [.fetchUsers (some annaAndBen), .searchBarTextDidBeginEditing, .textDidChange searchText,
    .updateSearchResults]

/-- `shows_found_iff` where the users come first. -/
theorem shows_found_iff_ben :
    ∃ t, run (SearchScreen.step plainContains) {} (searchFor "be") = some t ∧
      t.shown.map User.name = ["ben"] ∧
      t.shown = t.users.filter (User.found plainContains t.text) := by
  have h : run (SearchScreen.step plainContains) {} (searchFor "be") =
      some ((run (SearchScreen.step plainContains) {} (searchFor "be")).get (by decide)) :=
    (Option.some_get _).symm
  exact ⟨_, h, by decide, (shows_found_iff plainContains _ _ h).mpr (by decide) _ [] _
    (List.append_nil _).symm h (by decide) (by decide)⟩

/-- The users come after the text: ben is loaded and found, but not shown. -/
theorem shows_none_found :
    ∃ t, run (SearchScreen.step plainContains) {} [.searchBarTextDidBeginEditing,
        .textDidChange "be", .updateSearchResults, .fetchUsers (some annaAndBen)] = some t ∧
      t.pending = false ∧ t.searchMode = true ∧
      t.shown ≠ t.users.filter (User.found plainContains t.text) :=
  ⟨(run (SearchScreen.step plainContains) {} [.searchBarTextDidBeginEditing,
    .textDidChange "be", .updateSearchResults, .fetchUsers (some annaAndBen)]).get (by decide),
    (Option.some_get _).symm, by decide, by decide, by decide⟩

/-! ## What a tap on a row opens -/

namespace SearchScreen

variable {contains : String → String → Bool}

/-- Every counted row opens the profile of the user that it shows. -/
def Opens (s : SearchScreen) : Prop :=
  ∀ row, row < s.numberOfRowsInSection →
    ∃ user, s.didSelectRowAt row = some user ∧ s.cellForRowAt row = some user

/-- The delegate reads `users`, whatever the mode. -/
theorem opens_iff (s : SearchScreen) :
    s.Opens ↔ (s.searchMode = true → s.usersFillter <+: s.users) := by
  unfold Opens numberOfRowsInSection didSelectRowAt cellForRowAt
  cases s.searchMode with
  | false => exact iff_of_true (rows_agree_iff.mpr List.prefix_rfl) nofun
  | true => exact rows_agree_iff.trans (imp_iff_right rfl).symm

/-- A text that is typed while `users` begins with what was found before, and a
search that finds no user behind one that it does not find. No condition on
other events. -/
def KeepsRows (contains : String → String → Bool) (s : SearchScreen) : SearchEvent → Prop
  | .textDidChange searchText => searchText ≠ "" → s.usersFillter <+: s.users
  | .updateSearchResults => s.searchMode = true → s.users.Pairwise fun a b =>
    b.found contains s.text = true → a.found contains s.text = true
  | _ => True

instance (s : SearchScreen) : ∀ e, Decidable (s.KeepsRows contains e)
  | .textDidChange searchText =>
    inferInstanceAs (Decidable (searchText ≠ "" → s.usersFillter <+: s.users))
  | .updateSearchResults => inferInstanceAs (Decidable
      (s.searchMode = true → s.users.Pairwise fun a b =>
        b.found contains s.text = true → a.found contains s.text = true))
  | .fetchUsers _ | .searchBarTextDidBeginEditing | .searchBarCancelButtonClicked =>
    .isTrue trivial

/-- The step lemma: in a state whose rows open what they show, the next state is
one if and only if the event keeps the rows. -/
theorem opens_step {s s' : SearchScreen} {e : SearchEvent} (hs : s.Sound) (ho : s.Opens)
    (hstep : s.step contains e = some s') : s'.Opens ↔ s.KeepsRows contains e := by
  have hpre := (opens_iff s).mp ho
  rw [opens_iff]
  rcases step_cases hstep with ⟨rfl, rfl⟩ | ⟨documents, rfl, hfetching, rfl⟩ | ⟨rfl, rfl⟩ |
    ⟨searchText, rfl, hactive, rfl⟩ | ⟨rfl, rfl⟩ | ⟨rfl, rfl⟩
  · exact iff_of_true hpre trivial
  · -- nothing has been found before the users came
    refine iff_of_true (fun _ => ?_) trivial
    show s.usersFillter <+: _
    rw [(hs.fetching hfetching).2]
    exact List.nil_prefix
  · refine iff_of_true (fun hmode => ?_) trivial
    cases hactive : s.isActive with
    | true => exact hpre (by rw [searchMode, hactive]; exact hmode)
    | false =>
      -- a bar that becomes active is empty
      simp [searchMode, hs.text hactive] at hmode
  · have hmode : SearchScreen.searchMode { s with text := searchText, pending := true } = true ↔
        searchText ≠ "" := by
      simp [searchMode, hactive]
    rw [hmode]
    rfl
  · exact forall_congr' fun _ => filter_prefix_iff
  · exact iff_of_true nofun trivial

end SearchScreen

/-- The rows of the table in every run of the search screen: in every state, in
search mode or not, a tap on any counted row opens the profile of the user
shown there, if and only if every event of the run kept the rows. -/
theorem rows_open_user_iff (contains : String → String → Bool) (es : List SearchEvent)
    (t : SearchScreen) (h : run (SearchScreen.step contains) {} es = some t) :
    (∀ es₁ es₂ u, es = es₁ ++ es₂ → run (SearchScreen.step contains) {} es₁ = some u →
      u.Opens) ↔
      Along (SearchScreen.step contains) (SearchScreen.KeepsRows contains) {} es :=
  run_always_iff_along (fun _ _ _ hs => SearchScreen.Sound.step hs)
    (fun _ _ _ hs ho => SearchScreen.opens_step hs ho) es .start
    ((SearchScreen.opens_iff {}).mpr nofun) h

/-- `rows_open_user_iff` for a search that finds the first user. -/
theorem rows_open_user_iff_anna :
    ∃ t, run (SearchScreen.step plainContains) {} (searchFor "an") = some t ∧ t.Opens := by
  have h : run (SearchScreen.step plainContains) {} (searchFor "an") =
      some ((run (SearchScreen.step plainContains) {} (searchFor "an")).get (by decide)) :=
    (Option.some_get _).symm
  exact ⟨_, h, (rows_open_user_iff plainContains _ _ h).mpr (by decide) _ [] _
    (List.append_nil _).symm h⟩

/-- A search that finds the second user shows ben and opens anna. -/
theorem rows_open_other_user :
    ∃ t, run (SearchScreen.step plainContains) {} (searchFor "be") = some t ∧ ¬ t.Opens := by
  refine ⟨(run (SearchScreen.step plainContains) {} (searchFor "be")).get (by decide),
    (Option.some_get _).symm, fun hopens => ?_⟩
  obtain ⟨user, hopened, hshown⟩ := hopens 0 (by decide)
  exact absurd (hopened.trans hshown.symm) (by decide)

end Toontagram
