import Toontagram.Screen.Home

/-!
# The order in which the home screen fills

During the first load. The service sorts before it hands a list over, the screen
appends: of the list it is handed only the cartoon fetched last is new to it
(`Home.Tidy.step_cases`), and that one goes to the end. So a run of answers
leaves what going through the fetched cartoons in the order of their arrival
leaves (`Home.run_answers`), each list of the screen is the part of that order
with its types (`Home.first_load`), and how the lists are sorted on the way
plays no part.
-/

namespace Toontagram

open Lib (foldl_shelve_of_new run run_cons)

/-- The cartoons fetched by these answers, in the order of their arrival. -/
def arrived (s : CartoonStore) (es : List LoadEvent) : List Cartoon :=
  (completions es).filterMap s.cartoon?

theorem arrived_eq_filterMap (s : CartoonStore) (es : List LoadEvent) (i : Nat) :
    (es.map (HomeEvent.answer i)).filterMap (HomeEvent.brings s) = arrived s es := by
  rw [List.filterMap_map, arrived, completions, List.filterMap_filterMap]
  refine congrArg (fun f => List.filterMap f es) (funext fun e => ?_)
  cases e with
  | documents r => rfl
  | document id r =>
    show CartoonService.fetchCartoon s.documents id r = _
    rw [CartoonService.fetchCartoon, s.init_eq]
    cases hr : r.ok <;> simp [hr]

namespace Home

variable {sort : FeedSort} {s : CartoonStore}

/-! ## Answers one after the other -/

/-- Answers without a refresh place what they have fetched. -/
theorem run_answers : ∀ (es : List HomeEvent), (∀ e ∈ es, e ≠ .wantRefresh) →
    ∀ {h t : Home}, h.Tidy → run (step sort s) h es = some t →
      ∃ loads, t = { h.receive (es.filterMap (HomeEvent.brings s)) with loads := loads }
  | [], _, h, t, _, hrun => by
    obtain rfl : h = t := Option.some.inj hrun
    exact ⟨h.loads, rfl⟩
  | e :: es, hes, h, t, ht, hrun => by
    obtain ⟨h', hstep, hrest⟩ := run_cons hrun
    obtain ⟨rfl, -⟩ | ⟨-, loads, rfl⟩ := ht.step_cases hstep
    · exact absurd rfl (hes _ List.mem_cons_self)
    · obtain ⟨loads', rfl⟩ :=
        run_answers es (fun x hx => hes x (List.mem_cons_of_mem e hx)) (ht.step hstep) hrest
      refine ⟨loads', ?_⟩
      have hsplit : (e :: es).filterMap (HomeEvent.brings s) =
          (e.brings s).toList ++ es.filterMap (HomeEvent.brings s) := by
        rw [List.filterMap_cons]
        cases e.brings s <;> rfl
      rw [receive_withLoads, hsplit, receive, receive, receive, List.foldl_append]

/-- New cartoons are appended to `cartoons`, except those of the type RECOM. -/
theorem cartoons_receive_of_new {h : Home} {cs : List Cartoon} (hcs : cs.Nodup)
    (hnew : ∀ c ∈ cs, c ∉ h.toons c.category) :
    (h.receive cs).cartoons = h.cartoons ++ cs.filter fun c => c.category ≠ .recom := by
  induction cs generalizing h with
  | nil => exact (List.append_nil _).symm
  | cons c cs ih =>
    obtain ⟨hc, hcs⟩ := List.nodup_cons.mp hcs
    have hc' : c ∉ h.toons c.category := hnew c List.mem_cons_self
    have hrest : ∀ x ∈ cs, x ∉ (h.place c).toons x.category := by
      intro x hx hmem
      rw [toons_place] at hmem
      rcases Lib.mem_shelve.mp hmem with hmem | ⟨rfl, -⟩
      · exact hnew x (List.mem_cons_of_mem c hx) hmem
      · exact hc hx
    rw [receive, List.foldl_cons]
    refine (ih hcs hrest).trans ?_
    rw [cartoons_place]
    by_cases hk : c.category = .recom
    · rw [if_pos (.inl hk), List.filter_cons_of_neg (by simpa using hk)]
    · rw [if_neg (by simp [hk, hc']), List.filter_cons_of_pos (by simpa using hk)]
      simp

/-! ## The first load -/

/-- Answers to the only load of a screen are a run of that load. -/
theorem run_only_load : ∀ (es : List LoadEvent) {h t : Home} {r : FeedRun},
    h.loads = [r.load] → run (step sort s) h (es.map (.answer 0)) = some t →
      ∃ r', run (FeedRun.step sort s) r es = some r'
  | [], _, _, r, _, _ => ⟨r, rfl⟩
  | e :: es, h, t, r, hloads, hrun => by
    obtain ⟨h', hstep, hrest⟩ := run_cons hrun
    rw [step, hloads] at hstep
    obtain ⟨⟨l, out⟩, hload, rfl⟩ := Option.map_eq_some_iff.mp hstep
    have hstep' : FeedRun.step sort s r e = some ⟨l, r.handed ++ out.toList⟩ := by
      rw [FeedRun.step, hload]
      rfl
    obtain ⟨r', hr'⟩ := run_only_load (r := ⟨l, r.handed ++ out.toList⟩) es
      (by rw [loads_receive]; rfl) hrest
    exact ⟨r', by rw [run, hstep', Option.bind_some, hr']⟩

/-- A load fetches a cartoon once. -/
theorem nodup_arrived {es : List LoadEvent} {t : Home}
    (hrun : run (step sort s) (viewDidLoad none) (es.map (.answer 0)) = some t) :
    (arrived s es).Nodup := by
  obtain ⟨r, hr⟩ := run_only_load (r := FeedRun.start) es rfl hrun
  have hsound : r.Sound s := Lib.run_inv (fun _ _ _ hr => hr.step) es .start hr
  have hdone : r.load.completed = completions es := FeedRun.completed_run es .start hr
  exact s.nodup_filterMap (hdone ▸ hsound.load.nodup.of_append_left)

/-- Every list of the screen is in the order of arrival. -/
theorem first_load {es : List LoadEvent} {t : Home}
    (hrun : run (step sort s) (viewDidLoad none) (es.map (.answer 0)) = some t) :
    (∀ k, t.toons k = (arrived s es).filter fun c => c.category = k) ∧
    t.cartoons = (arrived s es).filter fun c => c.category ≠ .recom := by
  have hanswers : ∀ e ∈ es.map (HomeEvent.answer 0), e ≠ .wantRefresh := by
    intro e he
    obtain ⟨ev, -, rfl⟩ := List.mem_map.mp he
    nofun
  obtain ⟨loads, rfl⟩ := run_answers _ hanswers (.viewDidLoad none) hrun
  have hnodup := nodup_arrived hrun
  have hnew : ∀ c ∈ arrived s es, c ∉ (viewDidLoad none).toons c.category := by
    intro c _ hc
    rw [toons_viewDidLoad] at hc
    cases hc
  rw [arrived_eq_filterMap]
  constructor
  · intro k
    show ((viewDidLoad none).receive (arrived s es)).toons k = _
    rw [toons_receive, foldl_shelve_of_new hnodup hnew, toons_viewDidLoad, List.nil_append]
  · show ((viewDidLoad none).receive (arrived s es)).cartoons = _
    rw [cartoons_receive_of_new hnodup hnew, cartoons_viewDidLoad, List.nil_append]

end Home

/-! ## Newest first -/

/-- The lists of a screen opened without a preset cartoon, at any time of its
first load: all of them are newest first if and only if the cartoons of the type
RECOM have arrived newest first, and those of the other types, taken together,
have too. -/
theorem lists_newest_iff (sort : FeedSort) (s : CartoonStore) (es : List LoadEvent) (t : Home)
    (h : run (Home.step sort s) (Home.viewDidLoad none) (es.map (.answer 0)) = some t) :
    (Newest t.recomToons ∧ Newest t.loveToons ∧ Newest t.dailyToons ∧ Newest t.actionToons ∧
      Newest t.cartoons) ↔
      Newest ((arrived s es).filter fun c => c.type = "RECOM") ∧
      Newest ((arrived s es).filter fun c => c.type ≠ "RECOM") := by
  obtain ⟨htoons, hcartoons⟩ := Home.first_load h
  have hrecom : t.recomToons = (arrived s es).filter fun c => c.type = "RECOM" := by
    refine (htoons .recom).trans (List.filter_congr fun c _ => ?_)
    rw [decide_eq_decide, Cartoon.category_eq_recom]
  have hothers : t.cartoons = (arrived s es).filter fun c => c.type ≠ "RECOM" := by
    refine hcartoons.trans (List.filter_congr fun c _ => ?_)
    rw [decide_eq_decide, ne_eq, Cartoon.category_eq_recom]
  -- the three lists are parts of `cartoons`, in its order
  have hpart : ∀ k, k ≠ .recom → Newest t.cartoons → Newest (t.toons k) := by
    intro k hk hnewest
    have hsub : (t.toons k).Sublist t.cartoons := by
      rw [htoons, hcartoons]
      refine List.monotone_filter_right _ fun c hc => ?_
      simp only [decide_eq_true_eq] at hc ⊢
      exact hc ▸ hk
    exact hnewest.sublist hsub
  rw [← hrecom, ← hothers]
  constructor
  · rintro ⟨hr, -, -, -, hall⟩
    exact ⟨hr, hall⟩
  · rintro ⟨hr, hall⟩
    exact ⟨hr, hpart .love (by decide) hall, hpart .daily (by decide) hall,
      hpart .action (by decide) hall, hall⟩

/-- `lists_newest_iff` for two types: Tuesday's cartoon arrives first. -/
theorem lists_newest_iff_two :
    ∃ t, run (Home.step .insertion twoCartoons) (Home.viewDidLoad none) (loadAnswers 0) = some t ∧
      Newest t.recomToons ∧ Newest t.cartoons := by
  have h : run (Home.step .insertion twoCartoons) (Home.viewDidLoad none) (loadAnswers 0) =
      some ((run (Home.step .insertion twoCartoons) (Home.viewDidLoad none)
        (loadAnswers 0)).get (by decide)) := (Option.some_get _).symm
  obtain ⟨hr, -, -, -, hall⟩ :=
    (lists_newest_iff .insertion twoCartoons twoAnswers _ h).mpr (by decide)
  exact ⟨_, h, hr, hall⟩

/-- Two uploads of one type. -/
def twoDailies : CartoonStore :=
  let user := User.init .empty
  let url := Vector.replicate 5 ""
  (CartoonStore.empty.upload "author" ⟨"Monday", "", "DAILY", user, url, ⟨1, 0⟩, "c"⟩).upload
    "author" ⟨"Tuesday", "", "DAILY", user, url, ⟨2, 0⟩, "d"⟩

/-- Monday's cartoon arrives first. -/
def mondayFirst : List LoadEvent :=
  [.documents ⟨true, "", ⟨3, 0⟩⟩, .document "c" ⟨true, "", ⟨4, 0⟩⟩,
    .document "d" ⟨true, "", ⟨5, 0⟩⟩]

/-- The last list the load hands over is newest first, the screen's are not. -/
theorem lists_oldest_first :
    ∃ r t, run (FeedRun.step .insertion twoDailies) FeedRun.start mondayFirst = some r ∧
      run (Home.step .insertion twoDailies) (Home.viewDidLoad none)
        (mondayFirst.map (.answer 0)) = some t ∧
      (∀ id ∈ twoDailies.ids, id ∈ completions mondayFirst) ∧
      (∀ cartoons ∈ r.handed, Newest cartoons) ∧
      ¬ Newest t.dailyToons ∧ ¬ Newest t.cartoons :=
  ⟨(run (FeedRun.step .insertion twoDailies) FeedRun.start mondayFirst).get (by decide),
    (run (Home.step .insertion twoDailies) (Home.viewDidLoad none)
      (mondayFirst.map (.answer 0))).get (by decide),
    (Option.some_get _).symm, (Option.some_get _).symm, by decide, by decide, by decide, by decide⟩

end Toontagram
