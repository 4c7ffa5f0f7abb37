import Toontagram.Api.App
import Toontagram.Feed.Coherent
import Toontagram.Lib.Settle

/-!
# Following from two screens

A user is followed from the own notifications as well as from the profile screen
of this user, and both call `fanUsers`. The profile screen passes a completion
that goes on to `updateMainUserAfterFan`, which puts the cartoons of the user
into the own feed; the notification screen passes one that only lowers the loader
and flips the button. An unfollow is the same with `antiFanUser`.

`Tap.settling` reads off what either operation comes to, in whatever order its
calls are answered: `Call.Owes` says which of the three collections' documents a
call will write. `same_follow_iff` compares the two: they leave the same stars,
fans and feeds exactly when the store already had what the profile screen adds
to the feed or takes out of it.
-/

namespace Toontagram

open Lib (DocWrite Store Flight Settling run run_inv_of_forall)

/-- The collections that a follow is about. -/
def Collection.follows : Collection → Bool
  | .userStar _ => true
  | .userFan _ => true
  | .userFeed _ => true
  | _ => false

section owes

variable (t : Tap)

/-! ## What belongs to a follow -/

/-- A completion that a screen passes when it follows the user of the tap. -/
def ScreenCompletion.Follows : ScreenCompletion → Prop
  | .ignore => True
  | .fanned _ user _ => t.didFan = true ∧ user.uid = t.user.uid
  | .antiFanned _ user => t.didFan = false ∧ user.uid = t.user.uid
  | _ => False

def Completion.Follows : Completion → Prop
  | .screen c => c.Follows t
  | .fanUsers uid currentUid c =>
    t.didFan = true ∧ uid = t.user.uid ∧ currentUid = t.me ∧ c.Follows t
  | .antiFanUser uid currentUid c =>
    t.didFan = false ∧ uid = t.user.uid ∧ currentUid = t.me ∧ c.Follows t
  | _ => False

/-- A call of the follow or of its closures. -/
inductive Call.Follows : Call → Prop where
  | write {w : Write} {c : Completion}
      (hw : w.ref.collection.follows = true → w = .mark t.didFan w.ref)
      (hcartoon : w.ref.collection ≠ .cartoon) (hc : c.Follows t) :
      Call.Follows ⟨some t.me, .write w c⟩
  | list : Call.Follows t.list

variable (s : Firestore)

/-! ## What is owed -/

/-- A completion of the profile screen leads to the own feed, for the cartoons
that the store has of the user. -/
def ScreenCompletion.Owes (ref : DocRef) : ScreenCompletion → Prop
  | .fanned _ _ _ => ∃ x ∈ t.found s, ref = ⟨.userFeed t.me, x⟩
  | .antiFanned _ _ => ∃ x ∈ t.found s, ref = ⟨.userFeed t.me, x⟩
  | _ => False

def Completion.Owes (ref : DocRef) : Completion → Prop
  | .screen c => c.Owes t s ref
  | .fanUsers uid currentUid c => ref = ⟨.userFan uid, currentUid⟩ ∨ c.Owes t s ref
  | .antiFanUser uid currentUid c => ref = ⟨.userFan uid, currentUid⟩ ∨ c.Owes t s ref
  | _ => False

/-- The document of the three collections is written by the call or by what its
closures issue. -/
def Call.Owes (ref : DocRef) (k : Call) : Prop :=
  match k.request with
  | .write w c => w.ref = ref ∧ ref.collection.follows = true ∨ c.Owes t s ref
  | .getDocuments _ _ => ∃ x ∈ t.found s, ref = ⟨.userFeed t.me, x⟩
  | .getDocument _ _ => False

end owes

/-! ## One answer -/

section answer

variable {t : Tap} {s s' : Firestore} {m : Moment} {r : Reply} {k : Call} {ref : DocRef}

/-- What a screen's completion issues: feedback, and the query of the profile
screen, which owes what the completion owed. -/
theorem ScreenCompletion.Follows.run {c : ScreenCompletion} (h : c.Follows t)
    (hk : k ∈ (c.run (some t.me) m).calls) :
    k.Follows t ∧ ∀ ref, k.Owes t s ref → c.Owes t s ref := by
  have hfeedback : ∀ {toUid type cartoon user},
      k ∈ FeedBackService.uploadFeedBack (some t.me) toUid type cartoon user m →
      k.Follows t ∧ ∀ ref, k.Owes t s ref → c.Owes t s ref := by
    intro toUid type cartoon user hk
    obtain ⟨-, -, -, rfl⟩ := FeedBackService.mem_uploadFeedBack hk
    refine ⟨.write (by intro h; cases h) (by intro h; cases h) trivial, ?_⟩
    intro ref howed
    rcases howed with ⟨rfl, href⟩ | howes
    · cases href
    · cases howes
  cases c with
  | ignore => cases hk
  | fanned vc user currentUser =>
    rcases List.mem_append.mp hk with hk | hk
    · exact hfeedback hk
    · have hlist : k = t.list := by
        rw [List.mem_singleton.mp hk, Tap.list, h.1, h.2]
      rw [hlist]
      exact ⟨.list, fun _ howes => howes⟩
  | antiFanned vc user =>
    have hlist : k = t.list := by
      rw [List.mem_singleton.mp hk, Tap.list, h.1, h.2]
    rw [hlist]
    exact ⟨.list, fun _ howes => howes⟩
  | liked | commented => cases h

theorem ScreenCompletion.Follows.owes_run {c : ScreenCompletion} (h : c.Follows t)
    (howes : c.Owes t s ref) :
    ∃ k ∈ (c.run (some t.me) m).calls, k.Owes t s ref := by
  cases c with
  | fanned vc user currentUser => exact ⟨_, List.mem_append_right _ (List.mem_cons_self ..), howes⟩
  | antiFanned vc user => exact ⟨_, List.mem_cons_self .., howes⟩
  | ignore | liked | commented => cases howes

theorem Completion.Follows.run {c : Completion} (h : c.Follows t)
    (hk : k ∈ (c.run (some t.me) m).calls) :
    k.Follows t ∧ ∀ ref, k.Owes t s ref → c.Owes t s ref := by
  cases c with
  | screen c => exact ScreenCompletion.Follows.run h hk
  | fanUsers uid currentUid c | antiFanUser uid currentUid c =>
    obtain ⟨hfan, -, -, hc⟩ := h
    rw [List.mem_singleton.mp hk]
    refine ⟨.write (fun _ => by rw [hfan]; rfl) (fun h => by cases h) hc, ?_⟩
    intro ref howed
    rcases howed with ⟨rfl, -⟩ | howes
    · exact Or.inl rfl
    · exact Or.inr howes
  | likeCartoon | unLikeCartoon => cases h

theorem Completion.Follows.owes_run {c : Completion} (h : c.Follows t) (howes : c.Owes t s ref) :
    ∃ k ∈ (c.run (some t.me) m).calls, k.Owes t s ref := by
  cases c with
  | screen c => exact ScreenCompletion.Follows.owes_run h howes
  | fanUsers | antiFanUser =>
    refine ⟨_, List.mem_cons_self .., ?_⟩
    rcases howes with rfl | howes
    · exact Or.inl ⟨rfl, rfl⟩
    · exact Or.inr howes
  | likeCartoon | unLikeCartoon => cases howes

variable (h : k.Follows t) (hauthor : ∀ x, author s' x = author s x) (hr : r.ok = true)

include h hauthor

/-- No cartoon is written. -/
theorem Call.Follows.author_exec (x : DocID) : author (k.exec r s').1 x = author s x := by
  cases h with
  | @write w c hw hcartoon hc =>
    simp only [Call.exec]
    split
    next => exact (author_apply_ne hcartoon).trans (hauthor x)
    next => exact hauthor x
  | list => exact hauthor x

include hr

/-- What follows a call of the follow belongs to it and was owed by the call. -/
theorem Call.Follows.spawned {k' : Call} (hk' : k' ∈ (k.exec r s').2.calls) :
    k'.Follows t ∧ ∀ ref, k'.Owes t s ref → k.Owes t s ref := by
  cases h with
  | write hw hcartoon hc =>
    obtain ⟨hfollows, howes⟩ := Completion.Follows.run (s := s) hc hk'
    exact ⟨hfollows, fun ref h => Or.inr (howes ref h)⟩
  | list =>
    rw [t.list_exec hr] at hk'
    obtain ⟨x, hx, rfl⟩ := List.mem_map.mp hk'
    refine ⟨.write (fun _ => by rw [DocWrite.ref_mark]) (by rw [DocWrite.ref_mark]; simp)
      trivial, ?_⟩
    intro ref howed
    rcases howed with ⟨rfl, -⟩ | howes
    · -- the query finds what the store had when the follow began
      refine ⟨x, Tap.mem_found.mpr ?_, DocWrite.ref_mark ..⟩
      rw [← hauthor]
      exact Tap.mem_found.mp hx
    · cases howes

omit hauthor in
/-- A document of the three collections changes only as it is owed. -/
theorem Call.Follows.lookup_exec (href : ref.collection.follows = true) :
    (k.exec r s').1.lookup ref = s'.lookup ref ∨
      k.Owes t s ref ∧ (k.exec r s').1.lookup ref = Store.blank t.didFan := by
  cases h with
  | @write w c hw hcartoon hc =>
    simp only [Call.exec, if_pos hr]
    by_cases hwref : w.ref = ref
    · right
      refine ⟨Or.inl ⟨hwref, href⟩, ?_⟩
      rw [hw (hwref ▸ href), Store.lookup_apply_mark, if_pos hwref]
    · exact Or.inl (Store.lookup_apply_ne hwref)
  | list => exact Or.inl rfl

/-- What a call owes is written, or owed by a call of its closure. -/
theorem Call.Follows.owes_exec (href : ref.collection.follows = true) (howes : k.Owes t s ref) :
    (k.exec r s').1.lookup ref = Store.blank t.didFan ∨
      ∃ k' ∈ (k.exec r s').2.calls, k'.Owes t s ref := by
  cases h with
  | @write w c hw hcartoon hc =>
    rcases howes with ⟨hwref, -⟩ | howes
    · left
      simp only [Call.exec, if_pos hr]
      rw [hw (hwref ▸ href), Store.lookup_apply_mark, if_pos hwref]
    · exact Or.inr (Completion.Follows.owes_run hc howes)
  | list =>
    right
    obtain ⟨x, hx, rfl⟩ := howes
    rw [t.list_exec hr]
    refine ⟨t.feed x, List.mem_map_of_mem (Tap.mem_found.mpr ?_),
      Or.inl ⟨DocWrite.ref_mark .., rfl⟩⟩
    rw [hauthor]
    exact Tap.mem_found.mp hx

end answer

/-! ## The two operations -/

namespace Tap

variable (t : Tap)

/-- The follow settles the documents of the three collections. -/
def settling (s : Firestore) : Settling Backend Task Reply
    {ref : DocRef // ref.collection.follows = true} (Option Dictionary) where
  exec := Task.exec
  ok r := r.ok = true
  inv b := ∀ x, author b.store x = author s x
  valid task := task.call.Follows t
  view b ref := b.store.lookup ref.1
  final _ := Store.blank t.didFan
  owes task ref := task.call.Owes t s ref.1
  inv_exec hinv hvalid _ := hvalid.author_exec hinv
  valid_exec hinv hvalid hok task' htask' := by
    obtain ⟨k, hk, rfl⟩ := List.mem_map.mp htask'
    exact (hvalid.spawned hinv hok hk).1
  view_exec _ hvalid hok ref := hvalid.lookup_exec hok ref.2
  owes_exec hinv hvalid hok ref howes := by
    rcases hvalid.owes_exec hinv hok ref.2 howes with hfinal | ⟨k, hk, howes⟩
    · exact Or.inl hfinal
    · exact Or.inr ⟨_, List.mem_map_of_mem hk, howes⟩
  owes_spawned hinv hvalid hok task' htask' ref howes := by
    obtain ⟨k, hk, rfl⟩ := List.mem_map.mp htask'
    exact (hvalid.spawned hinv hok hk).2 ref.1 howes

/-- The tap as the profile screen carries it out. -/
def onProfile : Operation := .action t.action

/-- The user of the tap is followed or unfollowed from the notifications. -/
def onNotifications : Operation :=
  if t.user.fan then .unFan (some t.me) t.user.uid else .fan (some t.me) t.user.uid

/-- The first write from the notifications. -/
def starOnly : Call :=
  ⟨some t.me, .write (.mark t.didFan ⟨.userStar t.me, t.user.uid⟩)
    (if t.user.fan then .antiFanUser t.user.uid t.me .ignore
      else .fanUsers t.user.uid t.me .ignore)⟩

theorem calls_onNotifications : t.onNotifications.calls = [t.starOnly] := by
  cases hfan : t.user.fan <;>
    simp [onNotifications, Operation.calls, UserService.antiFanUser, UserService.fanUsers,
      starOnly, didFan, DocWrite.mark, hfan]

theorem star_follows : t.star.Follows t := by
  refine .write (fun _ => by rw [DocWrite.ref_mark]) (by rw [DocWrite.ref_mark]; simp) ?_
  cases hfan : t.user.fan <;>
    simp [Completion.Follows, ScreenCompletion.Follows, completion, didFan, hfan]

theorem starOnly_follows : t.starOnly.Follows t := by
  refine .write (fun _ => by rw [DocWrite.ref_mark]) (by rw [DocWrite.ref_mark]; simp) ?_
  cases hfan : t.user.fan <;>
    simp [Completion.Follows, ScreenCompletion.Follows, didFan, hfan]

variable {t} {s : Firestore} {ref : DocRef}

/-- From the notifications, the star and the fan are owed. -/
theorem owes_starOnly (href : ref.collection.follows = true) : t.starOnly.Owes t s ref ↔
    ⟨.userStar t.me, t.user.uid⟩ = ref ∨ ref = ⟨.userFan t.user.uid, t.me⟩ := by
  cases hfan : t.user.fan <;>
    simp [starOnly, Call.Owes, Completion.Owes, ScreenCompletion.Owes, href, hfan]

/-- From the profile screen, the feed is owed, too. -/
theorem owes_star (href : ref.collection.follows = true) : t.star.Owes t s ref ↔
    t.starOnly.Owes t s ref ∨ ∃ x ∈ t.found s, ref = ⟨.userFeed t.me, x⟩ := by
  rw [owes_starOnly href]
  cases hfan : t.user.fan <;>
    simp [star, completion, Call.Owes, Completion.Owes, ScreenCompletion.Owes, href, hfan,
      or_assoc]

end Tap

/-- All calls have been answered without error, in some order. -/
def App.Ended (n n' : App) : Prop :=
  ∃ es, run App.step n es = some n' ∧ (∀ e ∈ es, ∃ i r, e = .answer i r ∧ r.ok = true) ∧ n'.Quiet

/-- The operation was started in the store `s`, and all its calls are answered. -/
def Finished (s : Firestore) (o : Operation) (n : App) : Prop :=
  App.Ended ((App.opened s).start o) n

/-- An operation with one call, started in a store. -/
theorem App.start_single {s : Firestore} {o : Operation} {k : Call} (h : o.calls = [k]) :
    (App.opened s).start o = ⟨⟨s, [], [], []⟩, [⟨o, k⟩]⟩ := by
  simp [App.start, App.opened, Flight.issue, h]

/-- What a follow leaves of the three collections: the documents its first call
owes, and everything else as it was. -/
theorem Finished.lookup {t : Tap} {s : Firestore} {o : Operation} {k : Call} {n : App}
    (h : Finished s o n) (hcalls : o.calls = [k]) (hk : k.Follows t) {ref : DocRef}
    (href : ref.collection.follows = true) :
    (k.Owes t s ref → n.state.store.lookup ref = Store.blank t.didFan) ∧
      (¬ k.Owes t s ref → n.state.store.lookup ref = s.lookup ref) := by
  obtain ⟨es, hrun, hok, hquiet⟩ := h
  have hflight : ((App.opened s).start o).inflight = [⟨o, k⟩] := by
    rw [App.start_single hcalls]
  have hrefl : (t.settling s).Since ((App.opened s).start o) ((App.opened s).start o) :=
    .refl (fun _ => rfl) (fun task htask => by
      rw [hflight, List.mem_singleton] at htask
      exact htask ▸ hk)
  have hsince : (t.settling s).Since ((App.opened s).start o) n := by
    refine run_inv_of_forall ?_ hok hrefl hrun
    intro m e m' hm he hstep
    obtain ⟨i, r, rfl, hr⟩ := he
    exact hm.answer hr hstep
  obtain ⟨hfinal, hsame⟩ := hsince.settled hquiet ⟨ref, href⟩
  constructor
  · exact fun howes => hfinal ⟨⟨o, k⟩, by rw [hflight]; exact List.mem_singleton.mpr rfl, howes⟩
  · refine fun hnot => hsame ?_
    intro howed
    obtain ⟨task, htask, howes⟩ := howed
    rw [hflight, List.mem_singleton] at htask
    subst htask
    exact hnot howes

/-- For every store, every two different users and every order of the answers:
the two screens leave the same stars, fans and feeds if and only if the own feed
already had every cartoon of a user who is followed, or none of a user who is
unfollowed. -/
theorem same_follow_iff {t : Tap} {s : Firestore} {n n' : App}
    (h : Finished s t.onNotifications n) (h' : Finished s t.onProfile n') :
    (∀ ref : DocRef, ref.collection.follows = true →
      n.state.store.lookup ref = n'.state.store.lookup ref) ↔
    ∀ x ∈ t.found s, s.lookup ⟨.userFeed t.me, x⟩ = Store.blank t.didFan := by
  have hnotify := fun {ref : DocRef} (href : ref.collection.follows = true) =>
    h.lookup t.calls_onNotifications t.starOnly_follows href
  have hprofile := fun {ref : DocRef} (href : ref.collection.follows = true) =>
    h'.lookup t.calls_action t.star_follows href
  constructor
  · intro hsame x hx
    -- only the profile screen writes this document of the feed
    have hfeed : ¬ t.starOnly.Owes t s ⟨.userFeed t.me, x⟩ := by
      rw [Tap.owes_starOnly rfl]
      simp
    rw [← (hnotify rfl).2 hfeed, hsame _ rfl]
    exact (hprofile rfl).1 ((Tap.owes_star rfl).mpr (Or.inr ⟨x, hx, rfl⟩))
  · intro hfeeds ref href
    -- the star and the fan, the feed of a cartoon of the user, or anything else
    by_cases hstar : t.starOnly.Owes t s ref
    · rw [(hnotify href).1 hstar, (hprofile href).1 ((Tap.owes_star href).mpr (Or.inl hstar))]
    · rw [(hnotify href).2 hstar]
      by_cases howes : t.star.Owes t s ref
      · rw [(hprofile href).1 howes]
        obtain ⟨x, hx, rfl⟩ := ((Tap.owes_star href).mp howes).resolve_left hstar
        exact hfeeds x hx
      · rw [(hprofile href).2 howes]

/-! ## Both operations come to an end -/

/-- The first call in flight is answered. -/
theorem App.Ended.answer {b : Backend} {task : Task} {tasks : List Task} {r : Reply} {n : App}
    (hr : r.ok = true)
    (h : App.Ended ⟨(task.exec r b).1, tasks ++ (task.exec r b).2⟩ n) :
    App.Ended ⟨b, task :: tasks⟩ n := by
  obtain ⟨es, hrun, hok, hquiet⟩ := h
  refine ⟨.answer 0 r :: es, hrun, ?_, hquiet⟩
  intro e he
  rcases List.mem_cons.mp he with rfl | he
  · exact ⟨0, r, rfl, hr⟩
  · exact hok e he

theorem App.exists_ended_nil (b : Backend) : ∃ n, App.Ended ⟨b, []⟩ n :=
  ⟨⟨b, []⟩, [], rfl, fun _ he => (nomatch he), rfl⟩

/-- Calls whose closures issue nothing are answered one after the other. -/
theorem App.exists_ended_append {tasks rest : List Task}
    (htasks : ∀ task ∈ tasks, ∀ r b, (task.exec r b).2 = [])
    (hrest : ∀ b, ∃ n, App.Ended ⟨b, rest⟩ n) (b : Backend) :
    ∃ n, App.Ended ⟨b, tasks ++ rest⟩ n := by
  induction tasks generalizing b with
  | nil => exact hrest b
  | cons task tasks ih =>
    let r : Reply := ⟨true, ⟨"", ⟨0, 0⟩⟩⟩
    obtain ⟨n, hn⟩ := ih (fun task' h => htasks task' (List.mem_cons_of_mem _ h)) (task.exec r b).1
    refine ⟨n, App.Ended.answer (r := r) rfl ?_⟩
    rw [htasks task (List.mem_cons_self ..), List.append_nil]
    exact hn

/-- Calls whose closures issue nothing are all that is in flight. -/
theorem App.exists_ended_leaves {tasks : List Task}
    (htasks : ∀ task ∈ tasks, ∀ r b, (task.exec r b).2 = []) (b : Backend) :
    ∃ n, App.Ended ⟨b, tasks⟩ n := by
  have h := App.exists_ended_append htasks App.exists_ended_nil b
  rwa [List.append_nil] at h

/-- A call alone in flight is answered, and then what its closure issues. -/
theorem App.exists_ended_single {task : Task} (b : Backend)
    (h : ∀ r b', r.ok = true → ∃ n, App.Ended ⟨b', (task.exec r b).2⟩ n) :
    ∃ n, App.Ended ⟨b, [task]⟩ n := by
  obtain ⟨n, hn⟩ := h ⟨true, ⟨"", ⟨0, 0⟩⟩⟩ (task.exec ⟨true, ⟨"", ⟨0, 0⟩⟩⟩ b).1 rfl
  exact ⟨n, App.Ended.answer rfl hn⟩

/-- The query of the profile screen, and then the edits of the feed. -/
theorem Tap.exists_ended_list (t : Tap) (o : Operation) (b : Backend) :
    ∃ n, App.Ended ⟨b, [⟨o, t.list⟩]⟩ n := by
  refine App.exists_ended_single b fun r b' hr => ?_
  simp only [Task.exec, t.list_exec hr]
  refine App.exists_ended_leaves (fun task htask r b => ?_) b'
  obtain ⟨k, hk, rfl⟩ := List.mem_map.mp htask
  obtain ⟨x, -, rfl⟩ := List.mem_map.mp hk
  rfl

theorem Tap.exists_finished_onNotifications (t : Tap) (s : Firestore) :
    ∃ n, Finished s t.onNotifications n := by
  unfold Finished
  rw [App.start_single t.calls_onNotifications]
  refine App.exists_ended_single _ fun r b hr => ?_
  -- the second write has a closure that issues nothing
  have hfan : ∃ k, (t.starOnly.exec r s).2.calls = [k] ∧
      ∀ r b, (Task.exec ⟨t.onNotifications, k⟩ r b).2 = [] := by
    cases hfan : t.user.fan <;>
      simp [Call.exec, starOnly, Completion.run, hfan, Task.exec, ScreenCompletion.run]
  obtain ⟨k, hk, hleaf⟩ := hfan
  simp only [Task.exec, hk, List.map_cons, List.map_nil]
  refine App.exists_ended_leaves (fun task htask => ?_) b
  rw [List.mem_singleton.mp htask]
  exact hleaf

theorem Tap.exists_finished_onProfile (t : Tap) (s : Firestore) :
    ∃ n, Finished s t.onProfile n := by
  unfold Finished
  have hcalls : t.onProfile.calls = [t.star] := t.calls_action
  rw [App.start_single hcalls]
  refine App.exists_ended_single _ fun r b hr => ?_
  simp only [Task.exec, t.star_exec hr, List.map_cons, List.map_nil]
  refine App.exists_ended_single _ fun r b' hr => ?_
  obtain ⟨back, hback, hspawned⟩ := t.enrol_calls (r := r) (s := b.store)
  simp only [Task.exec, hspawned, List.map_append, List.map_cons, List.map_nil]
  refine App.exists_ended_append (fun task htask r b => ?_) (t.exists_ended_list _) b'
  obtain ⟨k, hk, rfl⟩ := List.mem_map.mp htask
  exact congrArg (List.map _) ((hback k hk).2 r b.store)

/-- From either screen, for every store, the operation can be carried out. -/
theorem Tap.exists_finished (t : Tap) (s : Firestore) :
    (∃ n, Finished s t.onNotifications n) ∧ ∃ n, Finished s t.onProfile n :=
  ⟨t.exists_finished_onNotifications s, t.exists_finished_onProfile s⟩

/-! ### A reader and an artist with one cartoon -/

/-- The reader follows the artist, whom he does not follow yet. -/
def firstFollow : Tap where
  me := "reader"
  currentUser := User.init (.ofList [("uid", .string "reader")])
  vc := 0
  user := User.init (.ofList [("uid", .string "artist")])
  other := by decide

/-- A store with one cartoon of the artist, which is in the reader's feed or not. -/
def oneCartoon (fed : Bool) : Firestore :=
  (DocWrite.mark fed ⟨.userFeed "reader", "c"⟩).apply
    ((DocWrite.setData ⟨.cartoon, "c"⟩ (.ofList [("uid", .string "artist")])).apply ∅)

/-- The calls in flight are answered one after the other. -/
def answers (k : Nat) : List App.Event := List.replicate k (.answer 0 ⟨true, ⟨"id", ⟨0, 0⟩⟩⟩)

theorem answers_ok {k : Nat} : ∀ e ∈ answers k, ∃ i r, e = App.Event.answer i r ∧ r.ok = true :=
  fun _ he => ⟨0, _, List.eq_of_mem_replicate he, rfl⟩

/-- The cartoon was in the feed before the follow: the screens do the same. -/
theorem same_follow_iff_fed : ∃ n n',
    Finished (oneCartoon true) firstFollow.onNotifications n ∧
    Finished (oneCartoon true) firstFollow.onProfile n' ∧
    ∀ ref : DocRef, ref.collection.follows = true →
      n.state.store.lookup ref = n'.state.store.lookup ref := by
  have h : Finished (oneCartoon true) firstFollow.onNotifications
      ((run App.step ((App.opened (oneCartoon true)).start firstFollow.onNotifications)
        (answers 2)).get (by decide)) :=
    ⟨answers 2, (Option.some_get _).symm, answers_ok, by decide⟩
  have h' : Finished (oneCartoon true) firstFollow.onProfile
      ((run App.step ((App.opened (oneCartoon true)).start firstFollow.onProfile)
        (answers 5)).get (by decide)) :=
    ⟨answers 5, (Option.some_get _).symm, answers_ok, by decide⟩
  refine ⟨_, _, h, h', (same_follow_iff h h').mpr fun x hx => ?_⟩
  obtain rfl : x = "c" := List.mem_singleton.mp hx
  rfl

/-- A follow from the notifications leaves the artist's cartoon out of the feed. -/
theorem same_follow_unfed : ∃ n n',
    Finished (oneCartoon false) firstFollow.onNotifications n ∧
    Finished (oneCartoon false) firstFollow.onProfile n' ∧
    n.state.store.has ⟨.userStar "reader", "artist"⟩ = true ∧
    n.state.store.lookup ⟨.userFeed "reader", "c"⟩ ≠
      n'.state.store.lookup ⟨.userFeed "reader", "c"⟩ := by
  have h : Finished (oneCartoon false) firstFollow.onNotifications
      ((run App.step ((App.opened (oneCartoon false)).start firstFollow.onNotifications)
        (answers 2)).get (by decide)) :=
    ⟨answers 2, (Option.some_get _).symm, answers_ok, by decide⟩
  have h' : Finished (oneCartoon false) firstFollow.onProfile
      ((run App.step ((App.opened (oneCartoon false)).start firstFollow.onProfile)
        (answers 5)).get (by decide)) :=
    ⟨answers 5, (Option.some_get _).symm, answers_ok, by decide⟩
  refine ⟨_, _, h, h', by decide, fun heq => ?_⟩
  exact absurd (congrArg Option.isSome heq) (by decide)

end Toontagram
