import Toontagram.Screen.Load

/-!
# The home screen

`HomeCollectionViewController`: five lists that the loads of the feed fill.
Every list a load hands over is gone through from the front; a cartoon that is
new to the list of its type is appended to it, and unless its type is RECOM to
`cartoons` as well. A refresh clears `cartoons` and starts another load beside
the ones still running.

The lists of the types are shelves (`Lib/Gather.lean`): going through a list
that is handed over is `List.foldl` of `shelve` on them (`toons_receive`).
`cartoons` is not: it is cleared, and the shelves that decide what is appended
to it are not. `Home.Shown` says that it still has everything but RECOM, and no
step brings a missing cartoon back (`shown_step`).
-/

namespace Toontagram

open Lib (Along Shelved Shelves mem_foldl_shelve mem_shelve prefix_foldl_shelve run
  run_iff_along run_inv shelve)

/-- The branches on `cartoon.type`. -/
inductive Category where
  | recom
  | daily
  | action
  | love
deriving DecidableEq, Repr

/-- The branch a cartoon takes: everything without a branch of its own is LOVE. -/
def Cartoon.category (cartoon : Cartoon) : Category :=
  if cartoon.type = "RECOM" then .recom
  else if cartoon.type = "DAILY" then .daily
  else if cartoon.type = "ACTION" then .action
  else .love

theorem Cartoon.category_eq_recom {cartoon : Cartoon} :
    cartoon.category = .recom ↔ cartoon.type = "RECOM" := by
  unfold Cartoon.category
  split_ifs with h <;> simp [h]

theorem Cartoon.type_of_daily {cartoon : Cartoon} (h : cartoon.category = .daily) :
    cartoon.type = "DAILY" := by
  unfold Cartoon.category at h
  split_ifs at h
  assumption

theorem Cartoon.type_of_action {cartoon : Cartoon} (h : cartoon.category = .action) :
    cartoon.type = "ACTION" := by
  unfold Cartoon.category at h
  split_ifs at h
  assumption

theorem Cartoon.type_of_love {cartoon : Cartoon} (h : cartoon.category = .love) :
    cartoon.type ≠ "RECOM" ∧ cartoon.type ≠ "DAILY" ∧ cartoon.type ≠ "ACTION" := by
  unfold Cartoon.category at h
  split_ifs at h with hr hd ha
  exact ⟨hr, hd, ha⟩

/-- The fields of the screen, and the loads it has started. -/
structure Home where
  cartoons : List Cartoon := []
  cartoon : Option Cartoon := none
  recomToons : List Cartoon := []
  loveToons : List Cartoon := []
  dailyToons : List Cartoon := []
  actionToons : List Cartoon := []
  loads : List Load := []
deriving DecidableEq, Repr

namespace Home

/-- The body of `cartoons.forEach` in `fetchCartoon`. -/
def place (h : Home) (cartoon : Cartoon) : Home :=
  if cartoon.type = "RECOM" then
    if h.recomToons.contains cartoon = false then
      { h with recomToons := h.recomToons ++ [cartoon] }
    else h
  else if cartoon.type = "DAILY" then
    if h.dailyToons.contains cartoon = false then
      { h with dailyToons := h.dailyToons ++ [cartoon], cartoons := h.cartoons ++ [cartoon] }
    else h
  else if cartoon.type = "ACTION" then
    if h.actionToons.contains cartoon = false then
      { h with actionToons := h.actionToons ++ [cartoon], cartoons := h.cartoons ++ [cartoon] }
    else h
  else
    if h.loveToons.contains cartoon = false then
      { h with loveToons := h.loveToons ++ [cartoon], cartoons := h.cartoons ++ [cartoon] }
    else h

/-- The completion `fetchCartoon` passes to `fetchCartoonFeed`. -/
def receive (h : Home) (cartoons : List Cartoon) : Home := cartoons.foldl place h

/-- `fetchCartoon()`. -/
def fetchCartoon (h : Home) : Home :=
  let h := { h with cartoons := [] }
  match h.cartoon with
  | none => { h with loads := h.loads ++ [CartoonService.fetchCartoonFeed] }
  | some _ => h

/-- `viewDidLoad()` of a screen opened with `cartoon`. -/
def viewDidLoad (cartoon : Option Cartoon) : Home := fetchCartoon { cartoon := cartoon }

/-- `wantRefresh()`. -/
def wantRefresh (h : Home) : Home := fetchCartoon { h with cartoons := [] }

end Home

/-- What happens to the screen: a pull-to-refresh, or an answer to the `i`-th load. -/
inductive HomeEvent where
  | wantRefresh
  | answer (i : Nat) (e : LoadEvent)
deriving DecidableEq, Repr

/-- The cartoon that is fetched by an answer. -/
def HomeEvent.brings (s : CartoonStore) : HomeEvent → Option Cartoon
  | .answer _ (.document id r) => CartoonService.fetchCartoon s.documents id r
  | _ => none

namespace Home

def step (sort : FeedSort) (s : CartoonStore) (h : Home) : HomeEvent → Option Home
  | .wantRefresh => some h.wantRefresh
  | .answer i e =>
    match h.loads[i]? with
    | none => none
    | some l => (l.step sort s e).map fun x =>
      { h with loads := h.loads.set i x.1 }.receive (x.2.getD [])

variable {sort : FeedSort} {s : CartoonStore}

/-- What an event can do: a refresh, or a load takes a step and hands over a
list or nothing. -/
theorem step_cases {h h' : Home} {e : HomeEvent} (hstep : h.step sort s e = some h') :
    (e = .wantRefresh ∧ h' = h.wantRefresh) ∨
    (∃ i ev l l' out, e = .answer i ev ∧ l ∈ h.loads ∧ l.step sort s ev = some (l', out) ∧
      h' = { h with loads := h.loads.set i l' }.receive (out.getD [])) := by
  cases e with
  | wantRefresh => exact .inl ⟨rfl, (Option.some.inj hstep).symm⟩
  | answer i ev =>
    rw [step] at hstep
    split at hstep
    next => cases hstep
    next l hl =>
      obtain ⟨⟨l', out⟩, hload, rfl⟩ := Option.map_eq_some_iff.mp hstep
      exact .inr ⟨i, ev, l, l', out, rfl, List.mem_of_getElem? hl, hload, rfl⟩

/-! ## The lists of the types are shelves -/

/-- The list of each branch. -/
def toons (h : Home) : Shelves Category Cartoon
  | .recom => h.recomToons
  | .daily => h.dailyToons
  | .action => h.actionToons
  | .love => h.loveToons

theorem toons_place (h : Home) (cartoon : Cartoon) :
    (h.place cartoon).toons = shelve Cartoon.category h.toons cartoon := by
  funext k
  unfold place shelve Lib.gather Cartoon.category
  split_ifs <;> cases k <;> simp_all [toons]

/-- `cartoons` gets what is new to a list other than `recomToons`. -/
theorem cartoons_place (h : Home) (cartoon : Cartoon) :
    (h.place cartoon).cartoons =
      if cartoon.category = .recom ∨ cartoon ∈ h.toons cartoon.category then h.cartoons
      else h.cartoons ++ [cartoon] := by
  unfold place Cartoon.category
  split_ifs <;> simp_all [toons]

@[simp] theorem loads_place (h : Home) (cartoon : Cartoon) :
    (h.place cartoon).loads = h.loads := by
  unfold place
  split_ifs <;> rfl

theorem toons_receive (h : Home) (cartoons : List Cartoon) :
    (h.receive cartoons).toons = cartoons.foldl (shelve Cartoon.category) h.toons := by
  induction cartoons generalizing h with
  | nil => rfl
  | cons c cs ih => rw [List.foldl_cons, ← toons_place, ← ih, receive, List.foldl_cons, receive]

@[simp] theorem loads_receive (h : Home) (cartoons : List Cartoon) :
    (h.receive cartoons).loads = h.loads := by
  induction cartoons generalizing h with
  | nil => rfl
  | cons c cs ih => exact (ih _).trans (h.loads_place c)

/-- Going through a list does not look at the loads. -/
theorem receive_withLoads (h : Home) (loads : List Load) (cartoons : List Cartoon) :
    { h with loads := loads }.receive cartoons = { h.receive cartoons with loads := loads } := by
  have hplace : ∀ (h : Home) c,
      { h with loads := loads }.place c = { h.place c with loads := loads } := by
    intro h c
    unfold place
    split_ifs <;> rfl
  induction cartoons generalizing h with
  | nil => rfl
  | cons c cs ih =>
    rw [receive, List.foldl_cons, hplace]
    exact ih (h.place c)

@[simp] theorem toons_wantRefresh (h : Home) : h.wantRefresh.toons = h.toons := by
  funext k
  unfold wantRefresh fetchCartoon
  cases h.cartoon <;> cases k <;> rfl

@[simp] theorem cartoons_wantRefresh (h : Home) : h.wantRefresh.cartoons = [] := by
  unfold wantRefresh fetchCartoon
  cases h.cartoon <;> rfl

/-- A refresh of a screen without a preset cartoon starts a load. -/
theorem loads_wantRefresh (h : Home) :
    h.wantRefresh.loads =
      h.loads ++ if h.cartoon = none then [CartoonService.fetchCartoonFeed] else [] := by
  unfold wantRefresh fetchCartoon
  cases h.cartoon with
  | none => rfl
  | some c => exact (List.append_nil _).symm

/-- No step takes anything from the list of a type. -/
theorem prefix_step {h h' : Home} {e : HomeEvent} (hstep : h.step sort s e = some h')
    (k : Category) : h.toons k <+: h'.toons k := by
  rcases step_cases hstep with ⟨-, rfl⟩ | ⟨i, ev, l, l', out, -, -, -, rfl⟩
  · exact ⟨[], by rw [List.append_nil, toons_wantRefresh]⟩
  · rw [toons_receive]
    exact prefix_foldl_shelve _ _ k

/-! ## The lists among themselves -/

/-- Every cartoon is on the shelf of its type, the shelves hold everything a
load has handed over, and `cartoons` holds some of what is on the shelves except
RECOM. Nothing here is about what is stored. -/
structure Tidy (h : Home) : Prop where
  shelved : Shelved Cartoon.category h.toons
  received : ∀ l ∈ h.loads, ∀ c ∈ l.cartoons, c ∈ h.toons c.category
  nodup : h.cartoons.Nodup
  shown : ∀ c ∈ h.cartoons, c.category ≠ .recom ∧ c ∈ h.toons c.category

theorem toons_viewDidLoad (preset : Option Cartoon) (k : Category) :
    (viewDidLoad preset).toons k = [] := by
  cases preset <;> cases k <;> rfl

theorem cartoons_viewDidLoad (preset : Option Cartoon) : (viewDidLoad preset).cartoons = [] := by
  cases preset <;> rfl

theorem mem_loads_viewDidLoad {preset : Option Cartoon} {l : Load}
    (hl : l ∈ (viewDidLoad preset).loads) : l = CartoonService.fetchCartoonFeed := by
  cases preset with
  | none => exact List.mem_singleton.mp hl
  | some c => cases hl

theorem mem_loads_wantRefresh {h : Home} {l : Load} (hl : l ∈ h.wantRefresh.loads) :
    l ∈ h.loads ∨ l = CartoonService.fetchCartoonFeed := by
  rw [loads_wantRefresh] at hl
  refine (List.mem_append.mp hl).imp_right fun hl => ?_
  split at hl
  · exact List.mem_singleton.mp hl
  · cases hl

theorem Tidy.viewDidLoad (preset : Option Cartoon) : (viewDidLoad preset).Tidy := by
  refine ⟨⟨fun k => ?_, fun k c hc => ?_⟩, fun l hl c hc => ?_, ?_, fun c hc => ?_⟩
  · rw [toons_viewDidLoad]
    exact List.nodup_nil
  · rw [toons_viewDidLoad] at hc
    cases hc
  · rw [mem_loads_viewDidLoad hl] at hc
    cases hc
  · rw [cartoons_viewDidLoad]
    exact List.nodup_nil
  · rw [cartoons_viewDidLoad] at hc
    cases hc

theorem Tidy.wantRefresh {h : Home} (ht : h.Tidy) : h.wantRefresh.Tidy := by
  refine ⟨?_, fun l hl c hc => ?_, ?_, fun c hc => ?_⟩
  · rw [toons_wantRefresh]
    exact ht.shelved
  · rw [toons_wantRefresh]
    rcases mem_loads_wantRefresh hl with hl | rfl
    · exact ht.received l hl c hc
    · cases hc
  · rw [cartoons_wantRefresh]
    exact List.nodup_nil
  · rw [cartoons_wantRefresh] at hc
    cases hc

/-- One cartoon is placed. -/
theorem Tidy.place {h : Home} (ht : h.Tidy) (c : Cartoon) : (h.place c).Tidy where
  shelved := by
    rw [toons_place]
    exact ht.shelved.shelve c
  received l hl x hx := by
    rw [loads_place] at hl
    rw [toons_place]
    exact mem_shelve.mpr (.inl (ht.received l hl x hx))
  nodup := by
    rw [cartoons_place]
    split
    · exact ht.nodup
    · next hnew =>
      refine ht.nodup.append (List.nodup_singleton c) (List.disjoint_singleton.mpr fun hmem => ?_)
      exact hnew (.inr (ht.shown c hmem).2)
  shown x hx := by
    rw [cartoons_place] at hx
    rw [toons_place]
    split at hx
    · exact ⟨(ht.shown x hx).1, mem_shelve.mpr (.inl (ht.shown x hx).2)⟩
    · next hnew =>
      rcases List.mem_append.mp hx with hx | hx
      · exact ⟨(ht.shown x hx).1, mem_shelve.mpr (.inl (ht.shown x hx).2)⟩
      · obtain rfl := List.mem_singleton.mp hx
        exact ⟨fun h => hnew (.inl h), mem_shelve.mpr (.inr ⟨rfl, rfl⟩)⟩

theorem Tidy.receive {h : Home} (ht : h.Tidy) (cartoons : List Cartoon) :
    (h.receive cartoons).Tidy := by
  induction cartoons generalizing h with
  | nil => exact ht
  | cons c cs ih => exact ih (ht.place c)

/-- A load takes a step and its list is gone through. -/
theorem Tidy.answer {h : Home} (ht : h.Tidy) {i : Nat} {ev : LoadEvent} {l l' : Load}
    {out : Option (List Cartoon)} (hl : l ∈ h.loads) (hload : l.step sort s ev = some (l', out)) :
    ({ h with loads := h.loads.set i l' }.receive (out.getD [])).Tidy := by
  have hcartoons := Load.cartoons_step hload
  have hreceive := ht.receive (out.getD [])
  rw [receive_withLoads]
  refine ⟨hreceive.shelved, fun x hx c hc => ?_, hreceive.nodup, hreceive.shown⟩
  rcases List.mem_or_eq_of_mem_set hx with hx | rfl
  · exact hreceive.received x (by rwa [loads_receive]) c hc
  · show c ∈ (h.receive (out.getD [])).toons c.category
    -- what this load holds is what it has just handed over, if it has
    rw [toons_receive, mem_foldl_shelve]
    rw [hcartoons] at hc
    cases out with
    | none => exact .inl (ht.received l hl c hc)
    | some cartoons => exact .inr ⟨hc, rfl⟩

theorem Tidy.step {h h' : Home} {e : HomeEvent} (ht : h.Tidy)
    (hstep : h.step sort s e = some h') : h'.Tidy := by
  rcases step_cases hstep with ⟨-, rfl⟩ | ⟨i, ev, l, l', out, -, hl, hload, rfl⟩
  · exact ht.wantRefresh
  · exact ht.answer hl hload

/-! ## One answer, one cartoon -/

/-- A cartoon that is on its shelf is not placed again. -/
theorem place_of_mem {h : Home} {c : Cartoon} (hc : c ∈ h.toons c.category) : h.place c = h := by
  unfold place
  unfold Cartoon.category at hc
  split_ifs at hc ⊢ <;> simp_all [toons]

theorem receive_of_mem {h : Home} {cartoons : List Cartoon}
    (hcs : ∀ c ∈ cartoons, c ∈ h.toons c.category) : h.receive cartoons = h := by
  induction cartoons with
  | nil => rfl
  | cons c cs ih =>
    rw [receive, List.foldl_cons, place_of_mem (hcs c List.mem_cons_self)]
    exact ih fun x hx => hcs x (List.mem_cons_of_mem c hx)

/-- Of a list in which only `x` may be new, `x` is placed. -/
theorem receive_eq_place {h : Home} {cartoons : List Cartoon} {x : Cartoon} (hx : x ∈ cartoons)
    (hcs : ∀ c ∈ cartoons, c = x ∨ c ∈ h.toons c.category) :
    h.receive cartoons = h.place x := by
  induction cartoons with
  | nil => cases hx
  | cons c cs ih =>
    have hrest : ∀ y ∈ cs, y = x ∨ y ∈ h.toons y.category := fun y hy =>
      hcs y (List.mem_cons_of_mem c hy)
    rw [receive, List.foldl_cons]
    rcases hcs c List.mem_cons_self with rfl | hc
    · -- after `c` is placed everything is on the shelves
      refine receive_of_mem fun y hy => ?_
      rw [toons_place, mem_shelve]
      exact (hrest y hy).symm.imp_right fun heq => ⟨heq, heq ▸ rfl⟩
    · rw [place_of_mem hc]
      rcases List.mem_cons.mp hx with rfl | hx
      · exact (receive_of_mem fun y hy => (hrest y hy).elim (fun heq => heq ▸ hc) id).trans
          (place_of_mem hc).symm
      · exact ih hx hrest

/-- What an event does to the lists: a refresh, or the cartoon that is fetched
is placed. Whatever else the list of the load holds has been placed before. -/
theorem Tidy.step_cases {h h' : Home} {e : HomeEvent} (ht : h.Tidy)
    (hstep : h.step sort s e = some h') :
    (e = .wantRefresh ∧ h' = h.wantRefresh) ∨
    (e ≠ .wantRefresh ∧ ∃ loads, h' = { h.receive (e.brings s).toList with loads := loads }) := by
  rcases Home.step_cases hstep with ⟨rfl, rfl⟩ | ⟨i, ev, l, l', out, rfl, hl, hload, rfl⟩
  · exact .inl ⟨rfl, rfl⟩
  · refine .inr ⟨nofun, h.loads.set i l', ?_⟩
    rw [receive_withLoads]
    rcases Load.step_cases hload with ⟨r, rfl, -, rfl, -⟩ | ⟨id, r, rfl, -, hnone, rfl, -⟩ |
      ⟨id, r, c, rfl, -, -, hsome, rfl, -⟩
    · rfl
    · rw [HomeEvent.brings, hnone]
      rfl
    · rw [HomeEvent.brings, hsome, Option.getD_some, Option.toList_some]
      have hmem : ∀ {y}, y ∈ Lib.gather sort.sort l.cartoons c ↔ y ∈ l.cartoons ∨ y = c :=
        Lib.mem_gather sort.perm
      rw [receive_eq_place (hmem.mpr (.inr rfl)) fun y hy =>
        (hmem.mp hy).symm.imp_right (ht.received l hl y)]
      rfl

/-! ## The invariant -/

/-- The lists are tidy, the loads are sound, and the shelves hold cartoons of the
store. -/
structure Sound (s : CartoonStore) (h : Home) : Prop extends Tidy h where
  loads : ∀ l ∈ h.loads, l.Sound s
  stored : ∀ k, ∀ c ∈ h.toons k, c ∈ s.cartoons

theorem Sound.viewDidLoad (preset : Option Cartoon) : (viewDidLoad preset).Sound s := by
  refine ⟨.viewDidLoad preset, fun l hl => ?_, fun k c hc => ?_⟩
  · rw [mem_loads_viewDidLoad hl]
    exact .start
  · rw [toons_viewDidLoad] at hc
    cases hc

theorem Sound.wantRefresh {h : Home} (hs : h.Sound s) : h.wantRefresh.Sound s := by
  refine ⟨hs.toTidy.wantRefresh, fun l hl => ?_, ?_⟩
  · rcases mem_loads_wantRefresh hl with hl | rfl
    · exact hs.loads l hl
    · exact .start
  · rw [toons_wantRefresh]
    exact hs.stored

/-- One cartoon of the store is placed. -/
theorem Sound.place {h : Home} (hs : h.Sound s) {c : Cartoon} (hc : c ∈ s.cartoons) :
    (h.place c).Sound s := by
  refine ⟨hs.toTidy.place c, ?_, fun k x hx => ?_⟩
  · rw [loads_place]
    exact hs.loads
  · rw [toons_place] at hx
    rcases mem_shelve.mp hx with hx | ⟨rfl, -⟩
    · exact hs.stored k x hx
    · exact hc

theorem Sound.receive {h : Home} (hs : h.Sound s) {cartoons : List Cartoon}
    (hc : ∀ c ∈ cartoons, c ∈ s.cartoons) : (h.receive cartoons).Sound s := by
  induction cartoons generalizing h with
  | nil => exact hs
  | cons c cs ih =>
    exact ih (hs.place (hc c List.mem_cons_self)) fun x hx => hc x (List.mem_cons_of_mem c hx)

/-- A load takes a step and its list is gone through. -/
theorem Sound.answer {h : Home} (hs : h.Sound s) {i : Nat} {ev : LoadEvent} {l l' : Load}
    {out : Option (List Cartoon)} (hl : l ∈ h.loads) (hload : l.step sort s ev = some (l', out)) :
    ({ h with loads := h.loads.set i l' }.receive (out.getD [])).Sound s := by
  have hreceive := hs.receive ((hs.loads l hl).mem_out hload)
  refine ⟨hs.toTidy.answer hl hload, fun x hx => ?_, ?_⟩
  · rw [loads_receive] at hx
    rcases List.mem_or_eq_of_mem_set hx with hx | rfl
    · exact hs.loads x hx
    · exact (hs.loads l hl).step hload
  · rw [receive_withLoads]
    exact hreceive.stored

theorem Sound.step {h h' : Home} {e : HomeEvent} (hs : h.Sound s)
    (hstep : h.step sort s e = some h') : h'.Sound s := by
  rcases step_cases hstep with ⟨-, rfl⟩ | ⟨i, ev, l, l', out, -, hl, hload, rfl⟩
  · exact hs.wantRefresh
  · exact hs.answer hl hload

/-- What a completed load has brought is on the shelves. -/
theorem Sound.mem_toons_iff {h : Home} (hs : h.Sound s) {l : Load} (hl : l ∈ h.loads)
    (hall : ∀ id ∈ s.ids, id ∈ l.completed) {c : Cartoon} :
    c ∈ h.toons c.category ↔ c ∈ s.cartoons :=
  ⟨hs.stored _ c, fun hc =>
    hs.received l hl c (((hs.loads l hl).perm_cartoons hall).mem_iff.mpr hc)⟩

/-! ## Every run -/

theorem prefix_run : ∀ (es : List HomeEvent) {h t : Home},
    run (step sort s) h es = some t → ∀ k, h.toons k <+: t.toons k
  | [], h, t, hrun, k => by
    obtain rfl : h = t := Option.some.inj hrun
    exact List.prefix_rfl
  | e :: es, h, t, hrun, k => by
    obtain ⟨h', hstep, hrest⟩ := Lib.run_cons hrun
    exact (prefix_step hstep k).trans (prefix_run es hrest k)

/-! ## What `cartoons` misses -/

/-- Whatever is on a shelf other than RECOM is in `cartoons`. -/
def Shown (h : Home) : Prop := ∀ k, k ≠ .recom → ∀ c ∈ h.toons k, c ∈ h.cartoons

/-- A refresh that comes while the three lists are still empty; no condition on
the answers. -/
def Calm (h : Home) (e : HomeEvent) : Prop :=
  e = .wantRefresh → h.loveToons = [] ∧ h.dailyToons = [] ∧ h.actionToons = []

instance (h : Home) (e : HomeEvent) : Decidable (h.Calm e) := by
  unfold Calm
  infer_instance

/-- Placing a cartoon neither loses nor restores one: it is appended to its
shelf and to `cartoons` together, or to neither. -/
theorem shown_place {h : Home} (hs : h.Sound s) (c : Cartoon) :
    (h.place c).Shown ↔ h.Shown := by
  unfold Shown
  rw [toons_place, cartoons_place]
  constructor
  · intro hshown k hk x hx
    have hx' := hshown k hk x (mem_shelve.mpr (.inl hx))
    split at hx'
    next => exact hx'
    next hnew =>
      rcases List.mem_append.mp hx' with hx' | hx'
      · exact hx'
      · -- `x` is the new cartoon, so it was on no shelf
        obtain rfl := List.mem_singleton.mp hx'
        exact absurd (.inr (hs.shelved.key k x hx ▸ hx)) hnew
  · intro hshown k hk x hx
    split
    next hold =>
      rcases mem_shelve.mp hx with hx | ⟨rfl, rfl⟩
      · exact hshown k hk x hx
      · exact hshown _ hk x (hold.resolve_left hk)
    next =>
      rcases mem_shelve.mp hx with hx | ⟨rfl, -⟩
      · exact List.mem_append_left _ (hshown k hk x hx)
      · exact List.mem_append_right _ (List.mem_singleton_self x)

theorem shown_receive {h : Home} (hs : h.Sound s) {cartoons : List Cartoon}
    (hc : ∀ c ∈ cartoons, c ∈ s.cartoons) : (h.receive cartoons).Shown ↔ h.Shown := by
  induction cartoons generalizing h with
  | nil => rfl
  | cons c cs ih =>
    have hstored : ∀ x ∈ cs, x ∈ s.cartoons := fun x hx => hc x (List.mem_cons_of_mem c hx)
    exact (ih (hs.place (hc c List.mem_cons_self)) hstored).trans (shown_place hs c)

/-- After a refresh nothing is shown, so nothing may be on the shelves. -/
theorem shown_wantRefresh (h : Home) :
    h.wantRefresh.Shown ↔ h.loveToons = [] ∧ h.dailyToons = [] ∧ h.actionToons = [] := by
  unfold Shown
  rw [toons_wantRefresh, cartoons_wantRefresh]
  constructor
  · intro hshown
    have hempty : ∀ k, k ≠ .recom → h.toons k = [] := fun k hk =>
      List.eq_nil_iff_forall_not_mem.mpr fun c hc => List.not_mem_nil (hshown k hk c hc)
    exact ⟨hempty .love (by decide), hempty .daily (by decide), hempty .action (by decide)⟩
  · rintro ⟨hlove, hdaily, haction⟩ k hk c hc
    cases k with
    | recom => exact absurd rfl hk
    | love => exact hlove ▸ hc
    | daily => exact hdaily ▸ hc
    | action => exact haction ▸ hc

/-- The step lemma: `Shown` is kept by calm steps, lost by the others and never
restored. -/
theorem shown_step {h h' : Home} {e : HomeEvent} (hs : h.Sound s)
    (hstep : h.step sort s e = some h') : h'.Shown ↔ h.Shown ∧ h.Calm e := by
  rcases step_cases hstep with ⟨rfl, rfl⟩ | ⟨i, ev, l, l', out, rfl, hl, hload, rfl⟩
  · -- a calm refresh finds only RECOM on the shelves, of which nothing is shown
    rw [shown_wantRefresh]
    refine ⟨fun hempty => ⟨?_, fun _ => hempty⟩, fun hshown => hshown.2 rfl⟩
    intro k hk c hc
    exact absurd ((shown_wantRefresh h).mpr hempty k hk c (by rwa [toons_wantRefresh]))
      (by rw [cartoons_wantRefresh]; exact List.not_mem_nil)
  · have hcalm : h.Calm (.answer i ev) := fun h => by cases h
    rw [receive_withLoads, and_iff_left hcalm]
    exact shown_receive hs ((hs.loads l hl).mem_out hload)

/-- With no duplicates on either side, `Shown` is the permutation. -/
theorem Sound.perm_iff_shown {h : Home} (hs : h.Sound s) :
    h.cartoons.Perm (h.loveToons ++ h.dailyToons ++ h.actionToons) ↔ h.Shown := by
  have hflat : h.loveToons ++ h.dailyToons ++ h.actionToons =
      [Category.love, .daily, .action].flatMap h.toons := by
    simp [toons]
  rw [hflat, List.perm_ext_iff_of_nodup hs.nodup (hs.shelved.nodup_flatMap (by decide))]
  simp only [List.mem_flatMap]
  constructor
  · intro hiff k hk c hc
    refine (hiff c).mpr ⟨k, ?_, hc⟩
    cases k <;> simp_all
  · refine fun hshown c => ⟨fun hc => ?_, ?_⟩
    · obtain ⟨hcat, hmem⟩ := hs.shown c hc
      refine ⟨c.category, ?_, hmem⟩
      cases hk : c.category <;> simp_all
    · rintro ⟨k, hk, hc⟩
      refine hshown k ?_ c hc
      rintro rfl
      simp at hk

end Home

/-- The lists of the types in every run of a screen opened without a preset
cartoon, refreshed at any time, with the answers of overlapping loads in any
order: no duplicates, nothing lost (`u` is any later state), no cartoon in two
lists, every cartoon in the list of its type, and all cartoons once some load
has completed. -/
theorem shelved_by_type (sort : FeedSort) (s : CartoonStore) (es fs : List HomeEvent)
    (t u : Home) (ht : run (Home.step sort s) (Home.viewDidLoad none) es = some t)
    (hu : run (Home.step sort s) t fs = some u) :
    (∀ k, (t.toons k).Nodup) ∧
    (∀ k, t.toons k <+: u.toons k) ∧
    (∀ k k', k ≠ k' → (t.toons k).Disjoint (t.toons k')) ∧
    (∀ c ∈ t.recomToons, c.type = "RECOM") ∧
    (∀ c ∈ t.dailyToons, c.type = "DAILY") ∧
    (∀ c ∈ t.actionToons, c.type = "ACTION") ∧
    (∀ c ∈ t.loveToons, c.type ≠ "RECOM" ∧ c.type ≠ "DAILY" ∧ c.type ≠ "ACTION") ∧
    ((∃ l ∈ t.loads, ∀ id ∈ s.ids, id ∈ l.completed) →
      (t.recomToons ++ t.dailyToons ++ t.actionToons ++ t.loveToons).Perm s.cartoons) := by
  have hs : t.Sound s := run_inv (fun _ _ _ hh => hh.step) es (.viewDidLoad none) ht
  refine ⟨hs.shelved.nodup, Home.prefix_run fs hu, fun k k' => hs.shelved.disjoint,
    fun c hc => ?_, fun c hc => ?_, fun c hc => ?_, fun c hc => ?_, ?_⟩
  · exact Cartoon.category_eq_recom.mp (hs.shelved.key .recom c hc)
  · exact Cartoon.type_of_daily (hs.shelved.key .daily c hc)
  · exact Cartoon.type_of_action (hs.shelved.key .action c hc)
  · exact Cartoon.type_of_love (hs.shelved.key .love c hc)
  · rintro ⟨l, hl, hall⟩
    have hflat : t.recomToons ++ t.dailyToons ++ t.actionToons ++ t.loveToons =
        [Category.recom, .daily, .action, .love].flatMap t.toons := by
      simp [Home.toons]
    rw [hflat]
    refine hs.shelved.perm (by decide) s.nodup_cartoons fun c => ?_
    rw [← hs.mem_toons_iff hl hall]
    constructor
    · rintro ⟨k, -, hc⟩
      exact hs.shelved.key k c hc ▸ hc
    · exact fun hc => ⟨c.category, by cases c.category <;> decide, hc⟩

/-- All answers of the `i`-th load of `twoCartoons`. -/
def loadAnswers (i : Nat) : List HomeEvent := twoAnswers.map (.answer i)

/-- The screen after a refresh during the first load and all answers of the
second. -/
def overlapped : Option Home :=
  run (Home.step .insertion twoCartoons) (Home.viewDidLoad none) (.wantRefresh :: loadAnswers 1)

/-- `shelved_by_type` there; the answers of the first load come last. -/
theorem shelved_by_type_overlap :
    ∃ t, overlapped = some t ∧
      (t.recomToons ++ t.dailyToons ++ t.actionToons ++ t.loveToons).Perm
        twoCartoons.cartoons := by
  have ht : overlapped = some (overlapped.get (by decide)) := (Option.some_get _).symm
  have hu : run (Home.step .insertion twoCartoons) (overlapped.get (by decide)) (loadAnswers 0) =
      some ((run (Home.step .insertion twoCartoons) (overlapped.get (by decide))
        (loadAnswers 0)).get (by decide)) := (Option.some_get _).symm
  obtain ⟨-, -, -, -, -, -, -, hperm⟩ :=
    shelved_by_type .insertion twoCartoons _ _ _ _ ht hu
  exact ⟨_, ht, hperm (by decide)⟩

/-! ## The list of all types -/

namespace Home

/-- A screen opened without a preset cartoon has started a load. -/
theorem loads_ne_nil {sort : FeedSort} {s : CartoonStore} {es : List HomeEvent} {t : Home}
    (h : run (step sort s) (viewDidLoad none) es = some t) : t.loads ≠ [] := by
  refine run_inv (P := fun h => h.loads ≠ []) (fun h e h' hne hstep => ?_) es ?_ h
  · rcases step_cases hstep with ⟨-, rfl⟩ | ⟨i, ev, l, l', out, -, -, -, rfl⟩
    · rw [loads_wantRefresh]
      exact List.append_ne_nil_of_left_ne_nil hne _
    · rw [loads_receive, ne_eq, ← List.length_eq_zero_iff, List.length_set]
      exact fun hlen => hne (List.length_eq_zero_iff.mp hlen)
  · exact List.cons_ne_nil _ _

end Home

/-- The list of all types, in every run of a screen opened without a preset
cartoon in which every load has completed: it is the lists of LOVE, DAILY and
ACTION, and each cartoon of the store but RECOM once, if and only if every
refresh of the run came while these three lists were still empty. -/
theorem all_shown_iff (sort : FeedSort) (s : CartoonStore) (es : List HomeEvent) (t : Home)
    (h : run (Home.step sort s) (Home.viewDidLoad none) es = some t)
    (hall : ∀ l ∈ t.loads, ∀ id ∈ s.ids, id ∈ l.completed) :
    (t.cartoons.Perm (t.loveToons ++ t.dailyToons ++ t.actionToons) ∧
      t.cartoons.Perm (s.cartoons.filter fun c => c.type ≠ "RECOM")) ↔
      Along (Home.step sort s) Home.Calm (Home.viewDidLoad none) es := by
  have hs : t.Sound s := run_inv (fun _ _ _ hh => hh.step) es (.viewDidLoad none) h
  have hiff : t.Shown ↔ Along (Home.step sort s) Home.Calm (Home.viewDidLoad none) es := by
    rw [run_iff_along (fun _ _ _ hh => hh.step) (fun _ _ _ hh => Home.shown_step hh) es
      (.viewDidLoad none) h]
    exact and_iff_right fun k hk c hc => by cases k <;> cases hc
  rw [hs.perm_iff_shown, hiff, and_iff_left_of_imp]
  intro hcalm
  obtain ⟨l, ls, hl⟩ := List.exists_cons_of_ne_nil (Home.loads_ne_nil h)
  have hl : l ∈ t.loads := hl ▸ List.mem_cons_self
  rw [List.perm_ext_iff_of_nodup hs.nodup (s.nodup_cartoons.filter _)]
  intro c
  rw [List.mem_filter, ← hs.mem_toons_iff hl (hall l hl), decide_eq_true_eq, ne_eq,
    ← Cartoon.category_eq_recom]
  constructor
  · exact fun hc => (hs.shown c hc).symm
  · exact fun ⟨hc, hk⟩ => hiff.mpr hcalm _ hk c hc

/-- A refresh that finds everything loaded empties the list for good. -/
theorem all_shown_refresh :
    ∃ t, run (Home.step .insertion twoCartoons) (Home.viewDidLoad none)
        (loadAnswers 0 ++ .wantRefresh :: loadAnswers 1) = some t ∧
      (∀ l ∈ t.loads, ∀ id ∈ twoCartoons.ids, id ∈ l.completed) ∧
      ¬ t.cartoons.Perm (t.loveToons ++ t.dailyToons ++ t.actionToons) :=
  ⟨(run (Home.step .insertion twoCartoons) (Home.viewDidLoad none)
    (loadAnswers 0 ++ .wantRefresh :: loadAnswers 1)).get (by decide),
    (Option.some_get _).symm, by decide, by decide⟩

/-- `all_shown_iff` for a refresh before the first answer. -/
theorem all_shown_iff_early :
    ∃ t, run (Home.step .insertion twoCartoons) (Home.viewDidLoad none)
        (.wantRefresh :: loadAnswers 1 ++ loadAnswers 0) = some t ∧
      t.cartoons.Perm (t.loveToons ++ t.dailyToons ++ t.actionToons) := by
  have h : run (Home.step .insertion twoCartoons) (Home.viewDidLoad none)
      (.wantRefresh :: loadAnswers 1 ++ loadAnswers 0) =
        some ((run (Home.step .insertion twoCartoons) (Home.viewDidLoad none)
          (.wantRefresh :: loadAnswers 1 ++ loadAnswers 0)).get (by decide)) :=
    (Option.some_get _).symm
  exact ⟨_, h, ((all_shown_iff .insertion twoCartoons _ _ h (by decide)).mpr (by decide)).1⟩

end Toontagram
