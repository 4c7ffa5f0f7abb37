import Toontagram.Feed.Behalf

/-!
# What an operation brings about in a feed, whatever else goes on

While the calls of an upload, a follow or an unfollow are answered, and after that for ever,
all accounts go on, the one whose feed it is about too: it follows and unfollows others, and
these loops go through the same feed. What they do there is about other cartoons
(`Feed/Behalf.lean`), so what the operation is there for comes to be and stays:

- an upload reaches its author and the fans of its author (`App.delivered`);
- a follow brings the cartoons of the author, an unfollow takes them away (`App.swept`);

as long as the owner of the feed does not turn the other way.
-/

namespace Toontagram

open Lib (Along DocWrite Flight Store run run_inv_along)

namespace App

variable {v a : Uid} {x : DocID} {b : Bool} {o : Operation} {n n' : App}

/-- No call of the operation `o` fails, and the account sets out neither to follow the author
(`b`) nor to unfollow (`!b`). -/
def Undisturbed (v a : Uid) (b : Bool) (o : Operation) (n : App) : Event → Prop
  | .act o' => v ≠ a → o'.turns b ≠ some (v, a)
  | .answer i r => ∀ t ∈ n.inflight[i]?, t.origin = o → r.ok = true
  | _ => True

instance (v a : Uid) (b : Bool) (o : Operation) (n : App) : ∀ e, Decidable (Undisturbed v a b o n e)
  | .act o' => inferInstanceAs (Decidable (v ≠ a → o'.turns b ≠ some (v, a)))
  | .answer i r => inferInstanceAs (Decidable (∀ t ∈ n.inflight[i]?, t.origin = o → r.ok = true))
  | .fetchCartoon .. => .isTrue trivial
  | .fetchFeedBack .. => .isTrue trivial

/-- The cartoon is an upload of `a`, perhaps by the operation `o` and not yet written; and `v`, if
it is somebody else, is not about to follow `a` (`b`), or to unfollow (`!b`). -/
structure Holds (v a : Uid) (x : DocID) (b : Bool) (o : Operation) (n : App) : Prop where
  working : n.Working
  posted : (∃ t ∈ n.inflight, t.origin = o ∧ o.posts = some (a, x) ∧
      t.call.sets ⟨.cartoon, x⟩ = true) ∨ ∃ e ∈ n.state.log, e.origin.posts = some (a, x)
  stays : v = a ∨ ∀ t ∈ n.inflight, t.origin.turns b ≠ some (v, a)

theorem Holds.author (h : Holds v a x b o n) {author : Uid} {o' : Operation} (ho' : n.Origin o')
    (hposts' : o'.posts = some (author, x)) : author = a := by
  obtain ⟨o, ho, hposts⟩ : ∃ o, n.Origin o ∧ o.posts = some (a, x) := by
    rcases h.posted with ⟨t, ht, horigin, hposts, -⟩ | ⟨e, he, hposts⟩
    · exact ⟨_, Or.inl ⟨t, ht, horigin⟩, hposts⟩
    · exact ⟨_, Or.inr ⟨e, he, rfl⟩, hposts⟩
  obtain rfl := h.working.unique _ _ ⟨.cartoon, x⟩ ho ho' (Operation.newRef_of_posts hposts)
    (Operation.newRef_of_posts hposts')
  exact (Prod.mk.inj (Option.some.inj (hposts'.symm.trans hposts))).1

/-- A stored cartoon bears the name of its author. -/
theorem Holds.uid (h : Holds v a x b o n) {data : Dictionary}
    (hdata : n.state.store.lookup ⟨.cartoon, x⟩ = some data) :
    data "uid" = some (.string a) := by
  obtain ⟨u, a', -, hpart⟩ := (h.working.sound.cartoonFrom hdata).creation
  have huid : data "uid" = some (.string a') := (List.cons.inj hpart).1
  obtain ⟨e, he, hposts⟩ := h.working.sound.posted hdata huid
  rw [huid, h.author (Or.inr ⟨e, he, rfl⟩) hposts]

/-- An answer leaves what the feed has of the cartoon, if it is not of its upload. -/
theorem Holds.has_feed (h : Holds v a x b o n) {t : Task} (ht : t ∈ n.inflight)
    (hended : b = true → ∀ author, t.origin.posts ≠ some (author, x)) (r : Reply)
    (hfeed : n.state.store.has ⟨.userFeed v, x⟩ = !b) :
    Store.has (t.call.exec r n.state.store).1 ⟨.userFeed v, x⟩ = !b := by
  by_contra hne
  have hturned : Store.has (t.call.exec r n.state.store).1 ⟨.userFeed v, x⟩ = b := by
    simpa using hne
  obtain ⟨w, c, hreq, hleaves⟩ := exec_leaves hfeed hturned
  have hworks := h.working.flight t ht
  simp only [Call.WorksFor, hreq] at hworks
  rcases hworks.1.2 b v x hleaves with ⟨hb, author, hposts⟩ | ⟨author, hne, hturns, e, he, hposts⟩
  · exact hended hb author hposts
  · -- the cartoon has one upload, so it is its author to whom the account turns
    obtain rfl := h.author (Or.inr ⟨e, he, rfl⟩) hposts
    rcases h.stays with rfl | hflight
    · exact hne rfl
    · exact hflight t ht hturns

theorem Holds.step (h : Holds v a x b o n) {e : Event}
    (hturns : ∀ o', e = .act o' → v ≠ a → o'.turns b ≠ some (v, a))
    (hok : ∀ i r, e = .answer i r → ∀ t ∈ n.inflight[i]?, t.origin = o →
      o.posts = some (a, x) → r.ok = true)
    (hstep : n.step e = some n') : Holds v a x b o n' := by
  refine ⟨h.working.step hstep, ?_, ?_⟩
  · have hlog : n.state.log <+: n'.state.log := log_grows List.prefix_rfl hstep
    rcases h.posted with ⟨t, ht, horigin, hposts, hsets⟩ | ⟨e', he', hposts⟩
    · cases e with
      | act o' =>
        obtain ⟨-, -, rfl⟩ := step_act hstep
        exact Or.inl ⟨t, List.mem_append_left _ ht, horigin, hposts, hsets⟩
      | answer i r =>
        obtain ⟨pre, t', post, hin, hi, rfl⟩ := step_answer hstep
        rw [hin] at ht
        rcases Lib.Flight.mem_answered _ ht with rfl | ht
        · obtain ⟨data, c, hreq⟩ := Call.sets_cases hsets
          have hok : r.ok = true :=
            hok i r rfl t (by rw [hin]; exact Lib.Flight.getElem?_answered hi) horigin hposts
          refine Or.inr ⟨⟨t.origin, .setData ⟨.cartoon, x⟩ data⟩, List.mem_append_right _ ?_, ?_⟩
          · rw [Task.logged, hreq]
            simp [hok]
          · rw [horigin]
            exact hposts
        · exact Or.inl ⟨t, ht, horigin, hposts, hsets⟩
      | fetchCartoon | fetchFeedBack =>
        cases hstep
        exact Or.inl ⟨t, ht, horigin, hposts, hsets⟩
    · exact Or.inr ⟨e', hlog.subset he', hposts⟩
  · by_cases hv : v = a
    · exact Or.inl hv
    · refine Or.inr fun t ht hturned => ?_
      have hflight := h.stays.resolve_left hv
      rcases origin_flight hstep ht with ⟨t', ht', hsame⟩ | ⟨rfl, -⟩
      · exact hflight t' ht' (hsame ▸ hturned)
      · exact hturns _ rfl hv hturned

/-! ## An upload -/

/-- The account is the author or one of the fans, and has the cartoon or will get it. -/
structure Delivery (v a : Uid) (x : DocID) (o : Operation) (n : App) : Prop where
  holds : Holds v a x false o n
  fan : v = a ∨ n.state.store.has ⟨.userFan a, v⟩ = true
  coming : n.state.store.has ⟨.userFeed v, x⟩ = true ∨
    ∃ t ∈ n.inflight, t.origin = o ∧ t.call.Brings v a x

/-- An answer does not take the account from the fans of the author. -/
theorem Holds.has_fan (h : Holds v a x false o n) {t : Task} (ht : t ∈ n.inflight) (r : Reply)
    (hfan : v = a ∨ n.state.store.has ⟨.userFan a, v⟩ = true) :
    v = a ∨ Store.has (t.call.exec r n.state.store).1 ⟨.userFan a, v⟩ = true := by
  by_cases hv : v = a
  · exact Or.inl hv
  · right
    by_contra hgone
    obtain ⟨w, c, hreq, hleaves⟩ :=
      exec_leaves (b := false) (hfan.resolve_left hv) ((Bool.not_eq_true _).mp hgone)
    have hworks := h.working.flight t ht
    simp only [Call.WorksFor, hreq] at hworks
    exact h.stays.resolve_left hv t ht (hworks.1.1 false a v hleaves)

theorem Delivery.answer (h : Delivery v a x o n) {i : Nat} {r : Reply}
    (hok : ∀ t ∈ n.inflight[i]?, t.origin = o → r.ok = true) (hholds : Holds v a x false o n')
    (hstep : n.step (.answer i r) = some n') : Delivery v a x o n' := by
  obtain ⟨pre, t, post, hin, hi, rfl⟩ := step_answer hstep
  have ht : t ∈ n.inflight := by rw [hin]; simp
  refine ⟨hholds, h.holds.has_fan ht r h.fan, ?_⟩
  rcases h.coming with hfeed | ⟨t', ht', horigin, hbrings⟩
  · exact Or.inl (h.holds.has_feed ht nofun r hfeed)
  · rw [hin] at ht'
    rcases Lib.Flight.mem_answered
      ((t.call.exec r n.state.store).2.calls.map fun k => (⟨t.origin, k⟩ : Task)) ht' with rfl | ht'
    · have hr : r.ok = true :=
        hok t' (by rw [hin]; exact Lib.Flight.getElem?_answered hi) horigin
      rcases hbrings.exec hr h.fan with hhas | ⟨k, hk, hbrings⟩
      · exact Or.inl hhas
      · exact Or.inr ⟨⟨t'.origin, k⟩, List.mem_append_right _ (List.mem_map_of_mem hk), horigin,
          hbrings⟩
    · exact Or.inr ⟨t', ht', horigin, hbrings⟩

theorem Delivery.step (h : Delivery v a x o n) {e : Event}
    (hundisturbed : n.Undisturbed v a false o e) (hstep : n.step e = some n') :
    Delivery v a x o n' := by
  have hholds : Holds v a x false o n' := by
    refine h.holds.step (fun o' he => ?_) (fun i r he t ht horigin _ => ?_) hstep
    · subst he
      exact hundisturbed
    · subst he
      exact hundisturbed t ht horigin
  cases e with
  | act o' =>
    obtain ⟨-, -, rfl⟩ := step_act hstep
    exact ⟨hholds, h.fan,
      h.coming.imp_right fun ⟨t, ht, hbrings⟩ => ⟨t, List.mem_append_left _ ht, hbrings⟩⟩
  | answer i r => exact h.answer hundisturbed hholds hstep
  | fetchCartoon | fetchFeedBack =>
    cases hstep
    exact ⟨hholds, h.fan, h.coming⟩

/-- The account is to have what the author uploads: it is the author, or a fan that is not
about to unfollow the author. -/
def Receives (v a : Uid) (n : App) : Prop :=
  v = a ∨
  n.state.store.has ⟨.userFan a, v⟩ = true ∧ ∀ t ∈ n.inflight, t.origin.turns false ≠ some (v, a)

/-- The state in which the upload begins. -/
theorem Delivery.begin (ho : o.posts = some (a, x)) (hstart : (n.start o).Working)
    (hreceives : Receives v a n) : Delivery v a x o (n.start o) := by
  have hturns : o.turns false = none := by
    unfold Operation.posts at ho
    split at ho <;> cases ho
    rfl
  have hstays : v = a ∨ ∀ t ∈ (n.start o).inflight, t.origin.turns false ≠ some (v, a) := by
    refine hreceives.imp_right fun hfan t ht => ?_
    rcases mem_start ht with ht | ⟨k, hk, rfl⟩
    · exact hfan.2 t ht
    · rw [hturns]
      exact nofun
  refine ⟨⟨hstart, Or.inl ?_, hstays⟩, hreceives.imp_right And.left, Or.inr ?_⟩
  · unfold Operation.posts at ho
    split at ho
    next me u =>
      obtain ⟨rfl, rfl⟩ := Prod.mk.inj (Option.some.inj ho)
      refine ⟨_, List.mem_append_right _ (List.mem_map_of_mem (List.mem_cons_self ..)), rfl, rfl,
        ?_⟩
      exact decide_eq_true rfl
    next => cases ho
  · obtain ⟨k, hk, hbrings⟩ := Operation.brings ho v
    exact ⟨⟨o, k⟩, List.mem_append_right _ (List.mem_map_of_mem hk), rfl, hbrings⟩

/-- An upload begins, at any moment of a run from the empty store, and goes on without error,
while everybody does anything and any other calls fail. From then on, for the author and for
every fan of the author who does not set out to unfollow the author: the cartoon is in the feed,
or the upload has calls in flight. -/
theorem delivered {es es' : List Event} (hrun : run step (opened ∅) es = some n)
    (ho : o.posts = some (a, x)) (hreceives : Receives v a n)
    (hrun' : run step n (.act o :: es') = some n')
    (hundisturbed : Along step (Undisturbed v a false o) n (.act o :: es')) :
    n'.state.store.has ⟨.userFeed v, x⟩ = true ∨ ∃ t ∈ n'.inflight, t.origin = o := by
  obtain ⟨m, hstep, hrest⟩ := Lib.run_cons hrun'
  obtain ⟨-, hundisturbed⟩ := hundisturbed
  rw [hstep] at hundisturbed
  have hm : Delivery v a x o m := by
    have hworking := (working_run hrun).step hstep
    obtain ⟨-, -, rfl⟩ := step_act hstep
    exact .begin ho hworking hreceives
  have hinv : ∀ (m : App) e m', Delivery v a x o m → m.Undisturbed v a false o e →
      m.step e = some m' → Delivery v a x o m' :=
    fun _ _ _ h hundisturbed hstep => h.step hundisturbed hstep
  rcases (run_inv_along hinv es' hm hundisturbed hrest).coming with hfeed | ⟨t, ht, horigin, -⟩
  · exact Or.inl hfeed
  · exact Or.inr ⟨t, ht, horigin⟩

/-- The author uploads a cartoon. Meanwhile the reader unfollows somebody else, and the first write
of that fails. -/
def meanwhile : List Event :=
  let reader := User.init (.ofList [("uid", .string "reader")])
  let other := { User.init (.ofList [("uid", .string "other")]) with fan := true }
  [uploadByAuthor "c", .act (.action (.didTapButton (some "reader") (some reader) 0 other)),
   .answer 2 ⟨false, ⟨"id", ⟨0, 0⟩⟩⟩, success 1, success 1, success 3, success 1,
   success 0, success 0]

theorem delivered_meanwhile : ∃ n n', run step (opened ∅) newFan = some n ∧
    run step n meanwhile = some n' ∧ n'.state.store.has ⟨.userFeed "reader", "c"⟩ = true := by
  let n := (run step (opened ∅) newFan).get (by decide)
  let n' := (run step n meanwhile).get (by decide)
  have hrun : run step (opened ∅) newFan = some n := (Option.some_get _).symm
  have hrun' : run step n meanwhile = some n' := (Option.some_get _).symm
  have hfan : n.state.store.has ⟨.userFan "author", "reader"⟩ = true := by decide
  have hquiet : n.Quiet := by decide
  have hreceives : Receives "reader" "author" n := by
    refine Or.inr ⟨hfan, fun t ht => ?_⟩
    rw [hquiet] at ht
    cases ht
  refine ⟨n, n', hrun, hrun', ?_⟩
  rcases delivered hrun rfl hreceives hrun' (by decide) with hfeed | ⟨t, ht, -⟩
  · exact hfeed
  · have hquiet' : n'.Quiet := by decide
    rw [hquiet'] at ht
    cases ht

end App

/-! ## A follow, or an unfollow -/

/-- The completion leads to the loop over the cartoons of the author. -/
def ScreenCompletion.Sweeps (b : Bool) (a : Uid) : ScreenCompletion → Prop
  | .fanned _ user _ => b = true ∧ user.uid = a
  | .antiFanned _ user => b = false ∧ user.uid = a
  | _ => False

def Completion.Sweeps (b : Bool) (a : Uid) : Completion → Prop
  | .screen c => c.Sweeps b a
  | .fanUsers _ _ c => c.Sweeps b a
  | .antiFanUser _ _ c => c.Sweeps b a
  | _ => False

/-- The call will bring the cartoon, if it is stored, into the feed of the account (`b`), or out
of it (`!b`). -/
def Call.Sweeps (b : Bool) (v a : Uid) (x : DocID) (k : Call) : Prop :=
  k.auth = some v ∧
  match k.request with
  | .write w c => w = .mark b ⟨.userFeed v, x⟩ ∨ c.Sweeps b a
  | .getDocuments q (.updateMainUserAfterFan uid didFan) =>
    q = ⟨.cartoon, some ("uid", .string a)⟩ ∧ uid = v ∧ didFan = b
  | _ => False

section sweeps

variable {b : Bool} {v a : Uid} {x : DocID}

theorem ScreenCompletion.Sweeps.run {c : ScreenCompletion} (h : c.Sweeps b a) (m : Moment) :
    ∃ k ∈ (c.run (some v) m).calls, k.Sweeps b v a x := by
  cases c with
  | fanned vc user currentUser =>
    obtain ⟨rfl, rfl⟩ := h
    exact ⟨_, List.mem_append_right _ (List.mem_singleton_self _), rfl, rfl, rfl, rfl⟩
  | antiFanned vc user =>
    obtain ⟨rfl, rfl⟩ := h
    exact ⟨_, List.mem_singleton_self _, rfl, rfl, rfl, rfl⟩
  | ignore | liked | commented => cases h

theorem Completion.Sweeps.run {c : Completion} (h : c.Sweeps b a) (m : Moment) :
    ∃ k ∈ (c.run (some v) m).calls, k.Sweeps b v a x := by
  cases c with
  | screen c => exact ScreenCompletion.Sweeps.run h m
  | fanUsers | antiFanUser => exact ⟨_, List.mem_singleton_self _, rfl, Or.inr h⟩
  | likeCartoon | unLikeCartoon => cases h

/-- An answer without error while the cartoon is stored. -/
theorem Call.Sweeps.exec {k : Call} (h : k.Sweeps b v a x) {r : Reply} (hr : r.ok = true)
    {s : Firestore} {data : Dictionary} (hdata : s.lookup ⟨.cartoon, x⟩ = some data)
    (hauthor : data "uid" = some (.string a)) :
    Store.has (k.exec r s).1 ⟨.userFeed v, x⟩ = b ∨
      ∃ k' ∈ (k.exec r s).2.calls, k'.Sweeps b v a x := by
  obtain ⟨auth, request⟩ := k
  obtain ⟨rfl, h⟩ := h
  cases request with
  | write w c =>
    rcases h with rfl | hc
    · left
      simp only [Call.exec, if_pos hr]
      rw [Store.has_apply_mark, if_pos rfl]
    · exact Or.inr (Completion.Sweeps.run hc r.moment)
  | getDocuments q callback =>
    cases callback with
    | updateMainUserAfterCartoon uid cartoonID => cases h
    | updateMainUserAfterFan uid didFan =>
      obtain ⟨rfl, rfl, rfl⟩ := h
      right
      have hmem : (x, data) ∈ Query.documents ⟨.cartoon, some ("uid", .string a)⟩ s :=
        List.mem_filter.mpr ⟨Store.mem_documents.mpr hdata, decide_eq_true hauthor⟩
      simp only [Call.exec, if_pos hr]
      refine ⟨_, List.mem_map_of_mem hmem, ?_⟩
      cases didFan <;> exact ⟨rfl, Or.inl rfl⟩
  | getDocument ref callback => cases h

/-- The button of a profile starts a sweep. -/
theorem Operation.sweeps {o : Operation} {currentUser user : User} {vc : ProfileID}
    (ho : o = .action (.didTapButton (some v) (some currentUser) vc user)) (hne : v ≠ user.uid) :
    ∃ k ∈ o.calls, k.Sweeps (!user.fan) v user.uid x := by
  have hcurrent : user.currentUser (some v) = false := decide_eq_false (by simpa using hne)
  have hcalls : o.calls = header (some v) (some currentUser) vc user := by
    rw [ho]
    rfl
  rw [hcalls]
  cases hfan : user.fan with
  | true =>
    simp only [header, hcurrent, hfan, Bool.false_eq_true, if_false, if_true]
    exact ⟨_, List.mem_singleton_self _, rfl, Or.inr ⟨rfl, rfl⟩⟩
  | false =>
    simp only [header, hcurrent, hfan, Bool.false_eq_true, if_false]
    exact ⟨_, List.mem_singleton_self _, rfl, Or.inr ⟨rfl, rfl⟩⟩

/-- Who taps the button does not turn the other way with it. -/
theorem Operation.turns_ne {o : Operation} {currentUser user : User} {vc : ProfileID}
    (ho : o = .action (.didTapButton (some v) (some currentUser) vc user)) :
    o.turns user.fan ≠ some (v, user.uid) := by
  subst ho
  cases hfan : user.fan <;> simp [Operation.turns, Operation.asks, Operation.drops, hfan]

end sweeps

namespace App

/-- The app with a mark on the calls of one operation, so that they are told apart from those of
another one that is the same. -/
abbrev Marked := Flight Backend (Bool × Task)

namespace Marked

/-- What a closure issues has the mark of its call. -/
def exec (p : Bool × Task) (r : Reply) (s : Backend) : Backend × List (Bool × Task) :=
  ((p.2.exec r s).1, (p.2.exec r s).2.map fun t => (p.1, t))

/-- The app without the marks. -/
def app (m : Marked) : App := m.map id Prod.snd

/-- The operation begins, and its calls get the mark. -/
def start (n : App) (o : Operation) : Marked :=
  ⟨n.state, n.inflight.map (fun t => (false, t)) ++ o.calls.map fun k => (true, ⟨o, k⟩)⟩

/-- One event. No later operation has the mark. -/
def step (m : Marked) : Event → Option Marked
  | .act o =>
    if m.app.shows o && m.app.fresh o then some (m.issue (o.calls.map fun k => (false, ⟨o, k⟩)))
    else none
  | .answer i r => m.answer exec i r
  | .fetchCartoon cartoonID r => some { m with state := (m.app.fetchCartoon cartoonID r).state }
  | .fetchFeedBack uid now => some { m with state := (m.app.fetchFeedBack uid now).state }

/-- No call with the mark fails, and the account sets out neither to follow the author (`b`)
nor to unfollow (`!b`). -/
def Undisturbed (v a : Uid) (b : Bool) (m : Marked) : Event → Prop
  | .act o => o.turns b ≠ some (v, a)
  | .answer i r => ∀ p ∈ m.inflight[i]?, p.1 = true → r.ok = true
  | _ => True

instance (v a : Uid) (b : Bool) (m : Marked) : ∀ e, Decidable (Undisturbed v a b m e)
  | .act o => inferInstanceAs (Decidable (o.turns b ≠ some (v, a)))
  | .answer i r => inferInstanceAs (Decidable (∀ p ∈ m.inflight[i]?, p.1 = true → r.ok = true))
  | .fetchCartoon .. => .isTrue trivial
  | .fetchFeedBack .. => .isTrue trivial

variable {m m' : Marked}

theorem app_start (n : App) (o : Operation) : (start n o).app = n.start o := by
  simp [app, start, App.start, Flight.issue, Flight.map, Function.comp_def]

theorem step_app {e : Event} (hstep : m.step e = some m') : m.app.step e = some m'.app := by
  cases e with
  | act o =>
    obtain ⟨hguard, hm'⟩ := Option.ite_none_right_eq_some.mp hstep
    obtain rfl := Option.some.inj hm'
    rw [App.step, if_pos hguard]
    simp [app, App.start, Flight.issue, Flight.map, Function.comp_def]
  | answer i r =>
    refine Flight.answer_map hstep fun p hp => ?_
    simp [exec, Function.comp_def]
  | fetchCartoon | fetchFeedBack =>
    obtain rfl := Option.some.inj hstep
    rfl

/-- Whatever the app does it does with marks. -/
theorem exists_step {n' : App} {e : Event} (hstep : m.app.step e = some n') :
    ∃ m', m.step e = some m' ∧ m'.app = n' := by
  obtain ⟨m', hm'⟩ : ∃ m', m.step e = some m' := by
    cases e with
    | act o =>
      obtain ⟨hguard, -⟩ := Option.ite_none_right_eq_some.mp hstep
      exact ⟨_, if_pos hguard⟩
    | answer i r =>
      obtain ⟨t, ht, -⟩ := Option.map_eq_some_iff.mp hstep
      obtain ⟨p, hp, -⟩ : ∃ p, m.inflight[i]? = some p ∧ p.2 = t := by
        rw [app, Flight.map, List.getElem?_map] at ht
        exact Option.map_eq_some_iff.mp ht
      exact ⟨_, congrArg (Option.map _) hp⟩
    | fetchCartoon | fetchFeedBack => exact ⟨_, rfl⟩
  exact ⟨m', hm', Option.some.inj ((step_app hm').symm.trans hstep)⟩

theorem exists_run : ∀ (es : List Event) {m : Marked} {n' : App},
    run App.step m.app es = some n' → ∃ m', run step m es = some m' ∧ m'.app = n'
  | [], m, n', hrun => ⟨m, rfl, Option.some.inj hrun⟩
  | e :: es, m, n', hrun => by
    obtain ⟨n₁, hstep, hrest⟩ := Lib.run_cons hrun
    obtain ⟨m₁, hm₁, rfl⟩ := exists_step hstep
    obtain ⟨m', hrest', happ⟩ := exists_run es hrest
    exact ⟨m', by rw [run, hm₁, Option.bind_some, hrest'], happ⟩

end Marked

variable {v a : Uid} {x : DocID} {b : Bool} {o : Operation} {n n' : App} {m m' : Marked}

/-- The cartoon has been stored, and its upload is over if it is to be taken away; as long as it is
stored, the feed has of it what it should, or will have. -/
structure Sweep (v a : Uid) (x : DocID) (b : Bool) (o : Operation) (m : Marked) : Prop where
  holds : Holds v a x (!b) o m.app
  uploaded : ∃ e ∈ m.state.log, Write.sets ⟨.cartoon, x⟩ e.write = true
  ended : b = false → ∀ t ∈ m.app.inflight, ∀ author, t.origin.posts ≠ some (author, x)
  coming : m.state.store.has ⟨.cartoon, x⟩ = true → m.state.store.has ⟨.userFeed v, x⟩ = b ∨
    ∃ p ∈ m.inflight, p.1 = true ∧ p.2.call.Sweeps b v a x

/-- A cartoon that is stored after an answer was stored before: it is written once. -/
theorem Sweep.stored (h : Sweep v a x b o m) {t : Task} (ht : t ∈ m.app.inflight) {r : Reply}
    (hstored : Store.has (t.call.exec r m.state.store).1 ⟨.cartoon, x⟩ = true) :
    m.state.store.has ⟨.cartoon, x⟩ = true := by
  rcases has_exec_cases hstored with hold | ⟨e, he, hsets⟩
  · exact hold
  · have hnot := h.holds.working.sound.not_sets rfl h.uploaded t ht
    rw [logged_sets he hsets] at hnot
    cases hnot

/-- The upload of the cartoon does not begin again. -/
theorem Sweep.ended_step (h : Sweep v a x b o m) {e : Event} (hstep : m.step e = some m') :
    b = false → ∀ t ∈ m'.app.inflight, ∀ author, t.origin.posts ≠ some (author, x) := by
  intro hb t ht author hposts
  rcases origin_flight (Marked.step_app hstep) ht with ⟨t', ht', hsame⟩ | ⟨-, hfresh⟩
  · exact h.ended hb t' ht' author (hsame ▸ hposts)
  · exact h.holds.working.sound.newRef_ne h.uploaded hfresh (Operation.newRef_of_posts hposts)

theorem Sweep.answer (h : Sweep v a x b o m) {i : Nat} {r : Reply}
    (hok : ∀ p ∈ m.inflight[i]?, p.1 = true → r.ok = true) (hholds : Holds v a x (!b) o m'.app)
    (hstep : m.step (.answer i r) = some m') : Sweep v a x b o m' := by
  have hended := h.ended_step hstep
  obtain ⟨pre, p, post, hin, hi, rfl⟩ := Flight.answer_cases hstep
  have hp : p ∈ m.inflight := by rw [hin]; simp
  have ht : p.2 ∈ m.app.inflight := List.mem_map_of_mem hp
  obtain ⟨e, he, hsets⟩ := h.uploaded
  refine ⟨hholds, ⟨e, List.mem_append_left _ he, hsets⟩, hended, fun hstored => ?_⟩
  have hold := h.stored ht hstored
  obtain ⟨data, hdata⟩ := Option.isSome_iff_exists.mp hold
  rcases h.coming hold with hfeed | ⟨q, hq, hmark, hsweeps⟩
  · left
    have hkeeps := h.holds.has_feed ht
      (fun hb author => h.ended (by simpa using hb) p.2 ht author) r
    rw [Bool.not_not] at hkeeps
    exact hkeeps hfeed
  · rw [hin] at hq
    rcases Flight.mem_answered (Marked.exec p r m.state).2 hq with rfl | hq
    · have hr : r.ok = true :=
        hok q (by rw [hin]; exact Flight.getElem?_answered hi) hmark
      rcases hsweeps.exec hr hdata (h.holds.uid hdata) with hhas | ⟨k, hk, hsweeps⟩
      · exact Or.inl hhas
      · refine Or.inr ⟨(q.1, ⟨q.2.origin, k⟩), List.mem_append_right _ ?_, hmark, hsweeps⟩
        exact List.mem_map_of_mem (List.mem_map_of_mem hk)
    · exact Or.inr ⟨q, hq, hmark, hsweeps⟩

theorem Sweep.step (h : Sweep v a x b o m) (ho : o.posts = none) {e : Event}
    (hundisturbed : m.Undisturbed v a (!b) e) (hstep : m.step e = some m') :
    Sweep v a x b o m' := by
  have hholds : Holds v a x (!b) o m'.app := by
    refine h.holds.step (fun o' he _ => ?_) (fun i r _ t _ _ hposts => ?_)
      (Marked.step_app hstep)
    · subst he
      exact hundisturbed
    · rw [ho] at hposts
      cases hposts
  have hended := h.ended_step hstep
  cases e with
  | act o' =>
    obtain ⟨-, hm'⟩ := Option.ite_none_right_eq_some.mp hstep
    obtain rfl := Option.some.inj hm'
    exact ⟨hholds, h.uploaded, hended, fun hstored => (h.coming hstored).imp_right
      fun ⟨p, hp, hsweeps⟩ => ⟨p, List.mem_append_left _ hp, hsweeps⟩⟩
  | answer i r => exact h.answer hundisturbed hholds hstep
  | fetchCartoon | fetchFeedBack =>
    obtain rfl := Option.some.inj hstep
    exact ⟨hholds, h.uploaded, hended, h.coming⟩

/-- An account follows or unfollows an author on the profile screen, at any moment of a run from
the empty store, while everybody does anything. Its calls and what follows from them have the
mark. If none of these fails, and unless the account sets out to do the opposite: from then on
every cartoon of the author that was stored at the beginning (its upload being over, for an
unfollow) and still is, is in the feed, or not in it; or a call with the mark is in flight. -/
theorem swept {es es' : List Event} {currentUser user : User} {vc : ProfileID} {data : Dictionary}
    (hrun : run step (opened ∅) es = some n)
    (ho : o = .action (.didTapButton (some v) (some currentUser) vc user)) (hne : v ≠ user.uid)
    (hdata : n.state.store.lookup ⟨.cartoon, x⟩ = some data)
    (hauthor : data "uid" = some (.string user.uid))
    (hended : user.fan = true → ∀ t ∈ n.inflight, ∀ author, t.origin.posts ≠ some (author, x))
    (hstays : ∀ t ∈ n.inflight, t.origin.turns user.fan ≠ some (v, user.uid))
    (hrun' : run step n (.act o :: es') = some n') :
    ∃ m', run Marked.step (.start n o) es' = some m' ∧ m'.app = n' ∧
      (Along Marked.step (Marked.Undisturbed v user.uid user.fan) (.start n o) es' →
        n'.state.store.has ⟨.cartoon, x⟩ = true →
        n'.state.store.has ⟨.userFeed v, x⟩ = (!user.fan) ∨ ∃ p ∈ m'.inflight, p.1 = true) := by
  have hworking := working_run hrun
  obtain ⟨n₁, hstep, hrest⟩ := Lib.run_cons hrun'
  have hworking' := hworking.step hstep
  obtain ⟨-, -, rfl⟩ := step_act hstep
  rw [← Marked.app_start] at hrest hworking'
  obtain ⟨m', hm', rfl⟩ := Marked.exists_run es' hrest
  refine ⟨m', hm', rfl, fun hundisturbed hstored => ?_⟩
  have hhas : n.state.store.has ⟨.cartoon, x⟩ = true := by
    rw [Store.has, hdata]
    rfl
  have hposts : o.posts = none := by rw [ho]; rfl
  have hflight : ∀ t ∈ (Marked.start n o).app.inflight, t ∈ n.inflight ∨ t.origin = o := by
    intro t ht
    rw [Marked.app_start] at ht
    rcases mem_start ht with ht | ⟨k, -, rfl⟩
    · exact Or.inl ht
    · exact Or.inr rfl
  have hstart : Sweep v user.uid x (!user.fan) o (.start n o) := by
    refine ⟨⟨hworking', Or.inr (hworking.sound.posted hdata hauthor), Or.inr fun t ht => ?_⟩,
      hworking.sound.set_of_has hhas, fun hfan t ht author => ?_, fun _ => Or.inr ?_⟩
    · rw [Bool.not_not]
      rcases hflight t ht with ht | horigin
      · exact hstays t ht
      · rw [horigin]
        exact Operation.turns_ne ho
    · rcases hflight t ht with ht | horigin
      · exact hended (by simpa using hfan) t ht author
      · rw [horigin, hposts]
        intro hnone
        cases hnone
    · obtain ⟨k, hk, hsweeps⟩ := Operation.sweeps (x := x) ho hne
      exact ⟨(true, ⟨o, k⟩), List.mem_append_right _ (List.mem_map_of_mem hk), rfl, hsweeps⟩
  have hinv : ∀ (m : Marked) e m₁, Sweep v user.uid x (!user.fan) o m →
      m.Undisturbed v user.uid user.fan e → m.step e = some m₁ →
      Sweep v user.uid x (!user.fan) o m₁ :=
    fun _ _ _ h hundisturbed hstep =>
      h.step hposts ((Bool.not_not user.fan).symm ▸ hundisturbed) hstep
  rcases (run_inv_along hinv es' hstart hundisturbed hm').coming hstored with
    hfeed | ⟨p, hp, hmark, -⟩
  · exact Or.inl hfeed
  · exact Or.inr ⟨p, hp, hmark⟩

/-- The reader begins to follow the author, and taps again on another screen that shows the
profile as it was. In the meantime the author uploads another cartoon, and a write of that
fails, as does the first one of the second tap. -/
def joining : Operation × List Event :=
  let reader := User.init (.ofList [("uid", .string "reader")])
  let author := User.init (.ofList [("uid", .string "author")])
  let follow := Operation.action (.didTapButton (some "reader") (some reader) 0 author)
  (follow,
    [uploadByAuthor "d", success 0, success 1, success 1, .answer 1 ⟨false, ⟨"id", ⟨0, 0⟩⟩⟩,
     success 1, success 1, .act follow, success 0, success 0, .answer 0 ⟨false, ⟨"id", ⟨0, 0⟩⟩⟩])

theorem swept_joining : ∃ n n', run step (opened ∅) firstDay = some n ∧
    run step n (.act joining.1 :: joining.2) = some n' ∧
    (∃ t ∈ n'.inflight, t.origin = joining.1) ∧
    n'.state.store.has ⟨.userFeed "reader", "c"⟩ = true := by
  let n := (run step (opened ∅) firstDay).get (by decide)
  let n' := (run step n (.act joining.1 :: joining.2)).get (by decide)
  have hrun : run step (opened ∅) firstDay = some n := (Option.some_get _).symm
  have hrun' : run step n (.act joining.1 :: joining.2) = some n' := (Option.some_get _).symm
  let m := (run Marked.step (.start n joining.1) joining.2).get (by decide)
  have hm : run Marked.step (.start n joining.1) joining.2 = some m := (Option.some_get _).symm
  let data := (n.state.store.lookup ⟨.cartoon, "c"⟩).get (by decide)
  have hdata : n.state.store.lookup ⟨.cartoon, "c"⟩ = some data := (Option.some_get _).symm
  have hauthor : data "uid" = some (.string "author") := by decide
  have hquiet : n.Quiet := by decide
  have hstays : ∀ t ∈ n.inflight, t.origin.turns false ≠ some ("reader", "author") := by
    intro t ht
    rw [hquiet] at ht
    cases ht
  have hended : false = true → ∀ t ∈ n.inflight, ∀ author, t.origin.posts ≠ some (author, "c") := by
    intro hfan
    cases hfan
  obtain ⟨m', hm', -, hswept⟩ :=
    swept hrun rfl (by decide) hdata hauthor hended hstays hrun'
  obtain rfl : m = m' := Option.some.inj (hm.symm.trans hm')
  refine ⟨n, n', hrun, hrun', by decide, ?_⟩
  rcases hswept (by decide) (by decide) with hfeed | ⟨p, hp, hmark⟩
  · exact hfeed
  · -- what is left in flight is of the second tap
    have hunmarked : ∀ p ∈ m.inflight, p.1 = false := by decide
    rw [hunmarked p hp] at hmark
    cases hmark

end App

end Toontagram
