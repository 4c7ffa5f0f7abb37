import Toontagram.Lib.FanOut
import Toontagram.Feed.Coherent

/-!
# One follower and one author

`Net.view v a` is what a run of the whole system looks like to a pair: the
author `a` is the publisher, `v` the subscriber, and every call in flight that
concerns the two has its role (`Pending.role`). `Net.view_step` is the
simulation: an event of the system is a step of `Lib.FanOut`, whoever acts, if
`Net.orderly` holds of it:

- `v` taps the follow button of `a` only when the calls of the last tap on it
  are all answered;
- when the cartoons of `a` are listed on account of a tap, no upload that the
  tap would miss is under way (`Net.calm`).

An author counts as its own member: `updateMainUserAfterCartoon` writes the
author's feed after the loop over the fans, and no profile screen follows its
own user.
-/

namespace Toontagram

open Lib (DocWrite Flight Store Role FanOut)
open CartoonService (Upload)

/-- What a write on account of a tap is to the follower. -/
def Tap.roleOf (b : Bool) (ref : DocRef) : Option (Role DocID) :=
  match ref.collection with
  | .userStar _ => some (.note b)
  | .userFan _ => some (.enrol b)
  | .userFeed _ => some (.edit b ref.documentID)
  | _ => none

/-- What a write on account of an upload is to the author and to `v`. -/
def CartoonService.Upload.roleOf (v : Uid) (ref : DocRef) : Option (Role DocID) :=
  match ref.collection with
  | .cartoon => some (.post ref.documentID)
  | .userFeed v' => if v' = v then some (.deliver ref.documentID) else none
  | _ => none

/-- What a call in flight is to the author `a` and the follower `v`. -/
def Pending.role (v a : Uid) (p : Pending) : Option (Role DocID) :=
  match p.origin with
  | .didTapButton (some me) _ _ user =>
    if me = v ∧ user.uid = a then
      match p.call.request with
      | .write w _ => w.leaves.bind fun _ => Tap.roleOf (!user.fan) w.ref
      | .getDocuments _ _ => some (.list (!user.fan))
      | .getDocument _ _ => none
    else none
  | .uploadCartoon (some me) u =>
    if me = a then
      match p.call.request with
      | .write w _ => w.leaves.bind fun _ => Upload.roleOf v w.ref
      | .getDocuments _ _ => some (.read u.ref)
      | .getDocument _ _ => none
    else none
  | _ => none

section role

variable {v a : Uid}

@[simp] theorem role_star (t : Tap) :
    Pending.role v a ⟨t.action, t.star⟩ =
      if t.me = v ∧ t.user.uid = a then some (.note t.didFan) else none := by
  simp [Pending.role, Tap.roleOf, Tap.action, Tap.star, Tap.didFan]

@[simp] theorem role_enrol (t : Tap) :
    Pending.role v a ⟨t.action, t.enrol⟩ =
      if t.me = v ∧ t.user.uid = a then some (.enrol t.didFan) else none := by
  simp [Pending.role, Tap.roleOf, Tap.action, Tap.enrol, Tap.didFan]

@[simp] theorem role_list (t : Tap) :
    Pending.role v a ⟨t.action, t.list⟩ =
      if t.me = v ∧ t.user.uid = a then some (.list t.didFan) else none := by
  simp [Pending.role, Tap.action, Tap.list, Tap.didFan]

@[simp] theorem role_feed (t : Tap) (x : DocID) :
    Pending.role v a ⟨t.action, t.feed x⟩ =
      if t.me = v ∧ t.user.uid = a then some (.edit t.didFan x) else none := by
  simp [Pending.role, Tap.roleOf, Tap.action, Tap.feed, Tap.didFan]

@[simp] theorem role_post (u : Upload) (b : Uid) :
    Pending.role v a ⟨u.action b, u.post b⟩ = if b = a then some (.post u.ref) else none := rfl

@[simp] theorem role_read (u : Upload) (b : Uid) :
    Pending.role v a ⟨u.action b, u.read b⟩ = if b = a then some (.read u.ref) else none := rfl

@[simp] theorem role_deliver (u : Upload) (b v' : Uid) :
    Pending.role v a ⟨u.action b, u.deliver b v'⟩ =
      if b = a ∧ v' = v then some (.deliver u.ref) else none := by
  by_cases hb : b = a <;> by_cases hv : v' = v <;>
    simp [Pending.role, Upload.roleOf, Upload.action, Upload.deliver, hb, hv]

theorem role_aside {o : Action} {k : Call} (hk : Aside k) :
    Pending.role v a ⟨o, k⟩ = none := by
  have hnone : ∀ {w : Write}, AsideWrite w → ∀ b,
      (w.leaves.bind fun _ => Tap.roleOf b w.ref) = none ∧
      (w.leaves.bind fun _ => Upload.roleOf v w.ref) = none := by
    intro w hw b
    cases w with
    | updateData ref fields => exact ⟨rfl, rfl⟩
    | setData ref data =>
      simp only [AsideWrite, Collection.aside] at hw
      simp only [DocWrite.leaves, DocWrite.ref, Option.bind_some, Tap.roleOf, Upload.roleOf]
      cases hr : ref.collection <;> simp_all
    | delete ref =>
      simp only [AsideWrite, Collection.aside] at hw
      simp only [DocWrite.leaves, DocWrite.ref, Option.bind_some, Tap.roleOf, Upload.roleOf]
      cases hr : ref.collection <;> simp_all
  cases hk with
  | write hw hc =>
    unfold Pending.role
    split
    next =>
      split
      next => exact (hnone hw _).1
      next => rfl
    next =>
      split
      next => exact (hnone hw true).2
      next => rfl
    next => rfl

@[simp] theorem role_edited {o : Action} {auth : Option Uid} {ref : DocRef} :
    Pending.role v a ⟨o, ⟨auth, .getDocument ref .edited⟩⟩ = none := by
  unfold Pending.role
  split
  next => split <;> rfl
  next => split <;> rfl
  next => rfl

end role

namespace Net

/-- The system as the follower `v` and the author `a` see it. -/
def view (n : Net) (v a : Uid) : FanOut DocID where
  note := v = a || n.state.store.has ⟨.userStar v, a⟩
  member := v = a || n.state.store.has ⟨.userFan a, v⟩
  posted x := author n.state.store x = some (.string a)
  feed x := n.state.store.has ⟨.userFeed v, x⟩ = true
  flight := n.inflight.filterMap (Pending.role v a)

/-- A pair sees a publication exactly for a cartoon of the author under way. -/
theorem post_mem_flight {n : Net} (h : n.Stemmed) {v a : Uid} {x : DocID} :
    .post x ∈ (n.view v a).flight ↔ n.Posting a x := by
  simp only [view, List.mem_filterMap]
  constructor
  · rintro ⟨⟨o, k⟩, hp, hrole⟩
    have hstem : Stems o k := h _ hp
    cases hstem with
    | post u b =>
      rw [role_post, Option.ite_none_right_eq_some] at hrole
      obtain ⟨rfl, hu⟩ := hrole
      exact ⟨u, by simpa using hu, hp⟩
    | aside hk =>
      rw [role_aside hk] at hrole
      cases hrole
    | star t => simp at hrole
    | enrol t => simp at hrole
    | list t => simp at hrole
    | feed t y => simp at hrole
    | read u b => simp at hrole
    | deliver u b v' => simp at hrole
    | edited => simp at hrole
  · rintro ⟨u, rfl, hmem⟩
    exact ⟨_, hmem, by rw [role_post, if_pos rfl]⟩

theorem known_view {n : Net} (h : n.Stemmed) {v a : Uid} {x : DocID} :
    (n.view v a).Known x ↔ n.Known a x :=
  or_congr Iff.rfl (post_mem_flight h)

/-- The system after the answer of `p`. -/
abbrev answered (n : Net) (pre : List Pending) (p : Pending) (post : List Pending) (r : Reply) :
    Net :=
  ⟨(p.exec r n.state).1, pre ++ post ++ (p.exec r n.state).2⟩

/-- What a pair sees of an answer. -/
theorem view_answer {n : Net} {pre post : List Pending} {p : Pending} {r : Reply}
    (hr : r.ok = true) (v a : Uid) :
    (n.answered pre p post r).view v a =
      { note := v = a || (p.call.leavesAt ⟨.userStar v, a⟩).getD
          (n.state.store.has ⟨.userStar v, a⟩)
        member := v = a || (p.call.leavesAt ⟨.userFan a, v⟩).getD
          (n.state.store.has ⟨.userFan a, v⟩)
        posted x := author (p.call.exec r n.state.store).1 x = some (.string a)
        feed x := (p.call.leavesAt ⟨.userFeed v, x⟩).getD
          (n.state.store.has ⟨.userFeed v, x⟩) = true
        flight := pre.filterMap (Pending.role v a) ++ post.filterMap (Pending.role v a) ++
          ((p.call.exec r n.state.store).2.calls.map (⟨p.origin, ·⟩)).filterMap
            (Pending.role v a) } := by
  simp only [view, Pending.exec_store, Pending.exec_calls, Call.has_exec_ok _ hr,
    List.filterMap_append]

/-! ## Orderly events -/

/-- Every call of earlier taps of `v` on `a` is answered. -/
def idle (n : Net) (v a : Uid) : Bool :=
  (n.inflight.filterMap (Pending.role v a)).all fun ρ => !ρ.ofSubscriber

/-- No upload of `a` is under way that would be missed by a tap of `v` that
lists the cartoons of `a` now. A follow (`b`) misses a cartoon that is not
stored yet if the fans were read without `v`; an unfollow misses one that is
not stored yet and is delivered to `v`, and one that is still to be delivered. -/
def calm (n : Net) (v a : Uid) (b : Bool) : Bool :=
  let flight := n.inflight.filterMap (Pending.role v a)
  flight.all fun
    | .post x =>
      if b then
        flight.contains (.read x) || n.state.store.has ⟨.userFeed v, x⟩ ||
          flight.contains (.deliver x)
      else !n.state.store.has ⟨.userFeed v, x⟩
    | .deliver _ => b
    | _ => true

/-- The condition on an event under which the feed of `v` keeps up with `a`. -/
def orderly (v a : Uid) (n : Net) : Event → Bool
  | .act (.didTapButton (some me) _ _ user) => !(me = v && user.uid = a) || n.idle v a
  | .act _ => true
  | .answer i _ =>
    match n.inflight[i]?.bind (Pending.role v a) with
    | some (.list b) => n.calm v a b
    | _ => true

theorem calm_view {n : Net} {v a : Uid} {b : Bool} (h : n.calm v a b = true) :
    (n.view v a).Calm b := by
  simp only [calm, List.all_eq_true] at h
  cases b with
  | true =>
    intro x hx
    have := h _ hx
    simp only [if_true, Bool.or_eq_true, List.contains_iff_mem] at this
    exact or_assoc.mp this
  | false =>
    intro x
    refine ⟨fun hx => ?_, fun hx hf => ?_⟩
    · have := h _ hx
      simp at this
    · have := h _ hx
      simp only [Bool.false_eq_true, if_false, Bool.not_eq_true'] at this
      exact absurd (this.symm.trans hf) (by simp)

/-! ## The simulation -/

/-- What a pair sees of an answer that changes nothing for it, except that
feeds may change at cartoons of others. -/
theorem view_elsewhere {n : Net} {pre post : List Pending} {p : Pending} {r : Reply} {v a : Uid}
    (h : n.Coherent) (hr : r.ok = true) (hin : n.inflight = pre ++ p :: post)
    (hrole : p.role v a = none)
    (hspawned : ∀ k ∈ (p.call.exec r n.state.store).2.calls, Pending.role v a ⟨p.origin, k⟩ = none)
    (hstar : v ≠ a → p.call.leavesAt ⟨.userStar v, a⟩ = none)
    (hfan : v ≠ a → p.call.leavesAt ⟨.userFan a, v⟩ = none)
    (hposted : ∀ x, author (p.call.exec r n.state.store).1 x = some (.string a) ↔
      author n.state.store x = some (.string a))
    (hfeed : ∀ x, n.Known a x → p.call.leavesAt ⟨.userFeed v, x⟩ = none) :
    FanOut.Step (n.view v a) ((n.answered pre p post r).view v a) := by
  have hview : (n.answered pre p post r).view v a =
      { n.view v a with
        feed := fun x => Store.has (p.call.exec r n.state.store).1 ⟨.userFeed v, x⟩ = true } := by
    have hnone : ((p.call.exec r n.state.store).2.calls.map (⟨p.origin, ·⟩)).filterMap
        (Pending.role v a) = [] := by
      rw [List.filterMap_map]
      exact List.filterMap_eq_nil_iff.mpr hspawned
    rw [view_answer hr, hnone, List.append_nil]
    ext x
    · by_cases hva : v = a
      · simp [view, hva]
      · simp [view, hstar hva]
    · by_cases hva : v = a
      · simp [view, hva]
      · simp [view, hfan hva]
    · exact hposted x
    · simp [Call.has_exec_ok _ hr]
    · simp [view, hin, hrole, List.filterMap_append]
  rw [hview]
  refine .elsewhere fun x hx => ?_
  rw [Call.has_exec_ok _ hr, hfeed x ((known_view h.stemmed).mp hx)]
  rfl

theorem flight_of_role {n : Net} {pre post : List Pending} {p : Pending} {v a : Uid}
    {ρ : Role DocID} (hin : n.inflight = pre ++ p :: post) (hρ : p.role v a = some ρ) :
    (n.view v a).flight =
      pre.filterMap (Pending.role v a) ++ ρ :: post.filterMap (Pending.role v a) := by
  simp only [view, hin, List.filterMap_append, List.filterMap_cons_some hρ]

section answer

variable {n : Net} {pre post : List Pending} {r : Reply} {v a : Uid} (h : n.Coherent)
  (hr : r.ok = true)

include h hr

theorem view_star (t : Tap) (hin : n.inflight = pre ++ ⟨t.action, t.star⟩ :: post) :
    FanOut.Step (n.view v a) ((n.answered pre ⟨t.action, t.star⟩ post r).view v a) := by
  by_cases hv : t.me = v ∧ t.user.uid = a
  · obtain ⟨rfl, rfl⟩ := hv
    have hs := flight_of_role hin ((role_star t).trans (if_pos ⟨rfl, rfl⟩))
    have hview : (n.answered pre ⟨t.action, t.star⟩ post r).view t.me t.user.uid =
        { n.view t.me t.user.uid with
          note := t.didFan
          flight := pre.filterMap (Pending.role t.me t.user.uid) ++
            post.filterMap (Pending.role t.me t.user.uid) ++ [.enrol t.didFan] } := by
      rw [view_answer hr, t.star_exec hr]
      -- `t.other` takes the author's own pair out of `note` and `member`
      ext x <;> simp [view, t.other, author_apply_ne]
    rw [hview]
    exact .note hs
  · refine view_elsewhere h hr hin ((role_star t).trans (if_neg hv)) ?_ ?_ ?_ ?_ ?_
    · intro k hk
      rw [t.star_exec hr] at hk
      rw [List.mem_singleton.mp hk]
      exact (role_enrol t).trans (if_neg hv)
    · exact fun _ => by simpa using hv
    · exact fun _ => by simp
    · intro x
      rw [t.star_exec hr, author_apply_ne (by simp)]
    · exact fun x _ => by simp

theorem view_enrol (t : Tap) (hin : n.inflight = pre ++ ⟨t.action, t.enrol⟩ :: post) :
    FanOut.Step (n.view v a) ((n.answered pre ⟨t.action, t.enrol⟩ post r).view v a) := by
  have hstore := t.enrol_exec (s := n.state.store) hr
  obtain ⟨back, hback, hcalls⟩ := t.enrol_calls (r := r) (s := n.state.store)
  by_cases hv : t.me = v ∧ t.user.uid = a
  · obtain ⟨rfl, rfl⟩ := hv
    have hs := flight_of_role hin ((role_enrol t).trans (if_pos ⟨rfl, rfl⟩))
    -- the feedback of a follow has no role
    have hnone : (back.map (⟨t.action, ·⟩)).filterMap (Pending.role t.me t.user.uid) = [] := by
      rw [List.filterMap_map]
      exact List.filterMap_eq_nil_iff.mpr fun k hk => role_aside (hback k hk).1
    have hview : (n.answered pre ⟨t.action, t.enrol⟩ post r).view t.me t.user.uid =
        { n.view t.me t.user.uid with
          member := t.didFan
          flight := pre.filterMap (Pending.role t.me t.user.uid) ++
            post.filterMap (Pending.role t.me t.user.uid) ++ [.list t.didFan] } := by
      rw [view_answer hr, hstore, hcalls, List.map_append, List.filterMap_append, hnone]
      ext x <;> simp [view, t.other, author_apply_ne]
    rw [hview]
    exact .enrol hs
  · refine view_elsewhere h hr hin ((role_enrol t).trans (if_neg hv)) ?_ ?_ ?_ ?_ ?_
    · intro k hk
      rw [hcalls, List.mem_append, List.mem_singleton] at hk
      rcases hk with hk | rfl
      · exact role_aside (hback k hk).1
      · exact (role_list t).trans (if_neg hv)
    · exact fun _ => by simp
    · exact fun _ => by simpa [and_comm] using hv
    · intro x
      rw [hstore, author_apply_ne (by simp)]
    · exact fun x _ => by simp

theorem view_list (t : Tap) (hin : n.inflight = pre ++ ⟨t.action, t.list⟩ :: post)
    (hcalm : t.me = v → t.user.uid = a → n.calm v a t.didFan = true) :
    FanOut.Step (n.view v a) ((n.answered pre ⟨t.action, t.list⟩ post r).view v a) := by
  by_cases hv : t.me = v ∧ t.user.uid = a
  · obtain ⟨rfl, rfl⟩ := hv
    have hs := flight_of_role hin ((role_list t).trans (if_pos ⟨rfl, rfl⟩))
    have hview : (n.answered pre ⟨t.action, t.list⟩ post r).view t.me t.user.uid =
        { n.view t.me t.user.uid with
          flight := pre.filterMap (Pending.role t.me t.user.uid) ++
            post.filterMap (Pending.role t.me t.user.uid) ++
            (t.found n.state.store).map (.edit t.didFan) } := by
      have hroles : (((t.found n.state.store).map t.feed).map (⟨t.action, ·⟩)).filterMap
          (Pending.role t.me t.user.uid) = (t.found n.state.store).map (.edit t.didFan) := by
        rw [List.map_map, List.filterMap_map, ← List.filterMap_eq_map]
        congr 1
        funext x
        exact (role_feed t x).trans (if_pos ⟨rfl, rfl⟩)
      rw [view_answer hr, t.list_exec hr, hroles]
      ext x <;> simp [view]
    rw [hview]
    exact .list hs (fun x => Tap.mem_found) (calm_view (hcalm rfl rfl))
  · refine view_elsewhere h hr hin ((role_list t).trans (if_neg hv)) ?_ ?_ ?_ ?_ ?_
    · intro k hk
      rw [t.list_exec hr] at hk
      obtain ⟨x, -, rfl⟩ := List.mem_map.mp hk
      exact (role_feed t x).trans (if_neg hv)
    · exact fun _ => by simp
    · exact fun _ => by simp
    · intro x
      rw [t.list_exec hr]
    · exact fun x _ => by simp

theorem view_feed (t : Tap) (x : DocID) (hin : n.inflight = pre ++ ⟨t.action, t.feed x⟩ :: post) :
    FanOut.Step (n.view v a) ((n.answered pre ⟨t.action, t.feed x⟩ post r).view v a) := by
  by_cases hv : t.me = v ∧ t.user.uid = a
  · obtain ⟨rfl, rfl⟩ := hv
    have hs := flight_of_role hin ((role_feed t x).trans (if_pos ⟨rfl, rfl⟩))
    have hview : (n.answered pre ⟨t.action, t.feed x⟩ post r).view t.me t.user.uid =
        { n.view t.me t.user.uid with
          feed := fun y =>
            (if x = y then t.didFan else n.state.store.has ⟨.userFeed t.me, y⟩) = true
          flight := pre.filterMap (Pending.role t.me t.user.uid) ++
            post.filterMap (Pending.role t.me t.user.uid) } := by
      rw [view_answer hr, t.feed_exec x hr]
      ext y
      · simp [view]
      · simp [view]
      · simp [view, author_apply_ne]
      · by_cases hxy : x = y <;> simp [hxy]
      · simp
    rw [hview]
    refine .edit hs fun y => ?_
    by_cases hxy : x = y
    · simp [hxy]
    · simp [hxy, Ne.symm hxy, view]
  · -- an edit for another author is at a cartoon of that author
    have hother : ∀ y, n.Known a y → (t.feed x).leavesAt ⟨.userFeed v, y⟩ = none := by
      intro y hy
      rw [t.leavesAt_feed]
      refine if_neg fun e => hv ?_
      obtain ⟨hme, rfl⟩ : t.me = v ∧ x = y := by simpa using e
      refine ⟨hme, h.one _ _ x (Or.inl ?_) hy⟩
      exact h.edited ⟨t.action, t.feed x⟩ (by rw [hin]; simp) t t.me x t.didFan rfl (by simp)
    refine view_elsewhere h hr hin ((role_feed t x).trans (if_neg hv)) ?_ ?_ ?_ ?_ hother
    · intro k hk
      rw [t.feed_exec x hr] at hk
      cases hk
    · exact fun _ => by simp
    · exact fun _ => by simp
    · intro y
      rw [t.feed_exec x hr, author_apply_ne (by simp)]

theorem view_post (u : Upload) (b : Uid)
    (hin : n.inflight = pre ++ ⟨u.action b, u.post b⟩ :: post) :
    FanOut.Step (n.view v a) ((n.answered pre ⟨u.action b, u.post b⟩ post r).view v a) := by
  by_cases hb : b = a
  · subst hb
    have hs := flight_of_role (v := v) hin ((role_post u b).trans (if_pos rfl))
    have hview : (n.answered pre ⟨u.action b, u.post b⟩ post r).view v b =
        { n.view v b with
          posted := fun x => (if u.ref = x then some (.string b) else author n.state.store x) =
            some (.string b)
          flight := pre.filterMap (Pending.role v b) ++ post.filterMap (Pending.role v b) } := by
      rw [view_answer hr, u.post_exec b hr]
      ext x <;> simp [view, author_apply_post]
    rw [hview]
    refine .post hs fun x => ?_
    by_cases hx : u.ref = x
    · simp [hx]
    · simp [hx, Ne.symm hx, view]
  · -- the cartoon is known as the other author's, so it was not this one's
    have hknown : n.Known b u.ref := Or.inr ⟨u, rfl, by rw [hin]; simp⟩
    refine view_elsewhere h hr hin ((role_post u b).trans (if_neg hb)) ?_ ?_ ?_ ?_ ?_
    · intro k hk
      rw [u.post_exec b hr] at hk
      cases hk
    · exact fun _ => by simp
    · exact fun _ => by simp
    · intro x
      rw [u.post_exec b hr, author_apply_post]
      by_cases hx : u.ref = x
      · subst hx
        simp only [if_true, Option.some.injEq, Value.string.injEq]
        exact ⟨fun e => absurd e hb, fun e => absurd (h.one b a u.ref hknown (Or.inl e)) hb⟩
      · rw [if_neg hx]
    · exact fun x _ => by simp

theorem view_read (u : Upload) (b : Uid)
    (hin : n.inflight = pre ++ ⟨u.action b, u.read b⟩ :: post) :
    FanOut.Step (n.view v a) ((n.answered pre ⟨u.action b, u.read b⟩ post r).view v a) := by
  by_cases hb : b = a
  · subst hb
    have hs := flight_of_role (v := v) hin ((role_read u b).trans (if_pos rfl))
    have hview : (n.answered pre ⟨u.action b, u.read b⟩ post r).view v b =
        { n.view v b with
          flight := pre.filterMap (Pending.role v b) ++ post.filterMap (Pending.role v b) ++
            (((n.state.store.documents (.userFan b)).map (fun doc => u.deliver b doc.1) ++
              [u.deliver b b]).map (⟨u.action b, ·⟩)).filterMap (Pending.role v b) } := by
      rw [view_answer hr, u.read_exec b hr]
      ext x <;> simp [view]
    rw [hview]
    refine .read hs fun ρ => ?_
    simp only [List.mem_filterMap, List.mem_map, List.mem_append, List.mem_singleton]
    -- the fans found are the members, and the author's own entry comes last
    constructor
    · rintro ⟨p, ⟨k, hk, rfl⟩, hρ⟩
      rcases hk with ⟨⟨id, data⟩, hdoc, rfl⟩ | rfl
      · rw [role_deliver, Option.ite_none_right_eq_some] at hρ
        obtain ⟨⟨-, rfl⟩, hρ⟩ := hρ
        have hfan : n.state.store.has ⟨.userFan b, id⟩ = true :=
          Store.mem_documents_map_fst.mp (List.mem_map.mpr ⟨_, hdoc, rfl⟩)
        exact ⟨(Option.some.inj hρ).symm, by simp [view, hfan]⟩
      · rw [role_deliver, Option.ite_none_right_eq_some] at hρ
        obtain ⟨⟨-, rfl⟩, hρ⟩ := hρ
        exact ⟨(Option.some.inj hρ).symm, by simp [view]⟩
    · rintro ⟨rfl, hm⟩
      refine ⟨⟨u.action b, u.deliver b v⟩, ⟨_, ?_, rfl⟩, (role_deliver u b v).trans
        (if_pos ⟨rfl, rfl⟩)⟩
      simp only [view, Bool.or_eq_true, decide_eq_true_eq] at hm
      rcases hm with rfl | hfan
      · exact Or.inr rfl
      · obtain ⟨doc, hdoc, rfl⟩ := List.mem_map.mp (Store.mem_documents_map_fst.mpr hfan)
        exact Or.inl ⟨doc, hdoc, rfl⟩
  · refine view_elsewhere h hr hin ((role_read u b).trans (if_neg hb)) ?_ ?_ ?_ ?_ ?_
    · intro k hk
      rw [u.read_exec b hr] at hk
      obtain ⟨v', rfl⟩ : ∃ v', k = u.deliver b v' := by
        rcases List.mem_append.mp hk with hk | hk
        · obtain ⟨doc, -, rfl⟩ := List.mem_map.mp hk
          exact ⟨doc.1, rfl⟩
        · exact ⟨b, List.mem_singleton.mp hk⟩
      exact (role_deliver u b v').trans (if_neg fun e => hb e.1)
    · exact fun _ => by simp
    · exact fun _ => by simp
    · intro x
      rw [u.read_exec b hr]
    · exact fun x _ => by simp

theorem view_deliver (u : Upload) (b v' : Uid)
    (hin : n.inflight = pre ++ ⟨u.action b, u.deliver b v'⟩ :: post) :
    FanOut.Step (n.view v a) ((n.answered pre ⟨u.action b, u.deliver b v'⟩ post r).view v a) := by
  by_cases hv : b = a ∧ v' = v
  · obtain ⟨rfl, rfl⟩ := hv
    have hs := flight_of_role hin ((role_deliver u b v').trans (if_pos ⟨rfl, rfl⟩))
    have hview : (n.answered pre ⟨u.action b, u.deliver b v'⟩ post r).view v' b =
        { n.view v' b with
          feed := fun y => (if u.ref = y then true else n.state.store.has ⟨.userFeed v', y⟩) = true
          flight := pre.filterMap (Pending.role v' b) ++ post.filterMap (Pending.role v' b) } := by
      rw [view_answer hr, u.deliver_exec b v' hr]
      ext y
      · simp [view]
      · simp [view]
      · simp [view, author_apply_ne]
      · by_cases hxy : u.ref = y <;> simp [hxy]
      · simp
    rw [hview]
    refine .deliver hs fun y => ?_
    by_cases hxy : u.ref = y
    · simp [hxy]
    · simp [hxy, Ne.symm hxy, view]
  · -- a delivery of another author is of a cartoon of that author
    have hother : ∀ y, n.Known a y → (u.deliver b v').leavesAt ⟨.userFeed v, y⟩ = none := by
      intro y hy
      rw [leavesAt_deliver]
      refine if_neg fun e => hv ?_
      obtain ⟨hme, rfl⟩ : v' = v ∧ u.ref = y := by simpa using e
      exact ⟨h.one _ _ _ (h.uploaded ⟨u.action b, u.deliver b v'⟩ (by rw [hin]; simp) u b rfl) hy,
        hme⟩
    refine view_elsewhere h hr hin ((role_deliver u b v').trans (if_neg hv)) ?_ ?_ ?_ ?_ hother
    · intro k hk
      rw [u.deliver_exec b v' hr] at hk
      cases hk
    · exact fun _ => by simp
    · exact fun _ => by simp
    · intro y
      rw [u.deliver_exec b v' hr, author_apply_ne (by simp)]

theorem view_nothing {o : Action} {k : Call} (hin : n.inflight = pre ++ ⟨o, k⟩ :: post)
    (hk : Aside k ∨ ∃ auth ref, k = ⟨auth, .getDocument ref .edited⟩) :
    FanOut.Step (n.view v a) ((n.answered pre ⟨o, k⟩ post r).view v a) := by
  rcases hk with hk | ⟨auth, ref, rfl⟩
  · refine view_elsewhere h hr hin (role_aside hk)
      (fun k' hk' => role_aside ((hk.exec hr).2 k' hk')) (fun _ => hk.leavesAt rfl)
      (fun _ => hk.leavesAt rfl) ?_ (fun _ _ => hk.leavesAt rfl)
    intro x
    obtain ⟨w, hw, happly⟩ := (hk.exec (s := n.state.store) hr).1
    rw [happly, author_apply_aside hw]
  · refine view_elsewhere h hr hin role_edited ?_ (fun _ => rfl) (fun _ => rfl)
      (fun _ => Iff.rfl) (fun _ _ => rfl)
    intro k hk
    rw [edited_exec.2] at hk
    cases hk

end answer

/-- Every answer is a step of the pair. -/
theorem view_step_answer {n n' : Net} {i : Nat} {r : Reply} {v a : Uid} (h : n.Coherent)
    (hr : r.ok = true) (hord : n.orderly v a (.answer i r) = true)
    (hstep : n.step (.answer i r) = some n') : FanOut.Step (n.view v a) (n'.view v a) := by
  obtain ⟨pre, ⟨o, k⟩, post, hin, hlen, rfl⟩ := step_answer hstep
  have hstem : Stems o k := h.stemmed ⟨o, k⟩ (by rw [hin]; simp)
  cases hstem with
  | star t => exact view_star h hr t hin
  | enrol t => exact view_enrol h hr t hin
  | list t =>
    refine view_list h hr t hin fun hme huser => ?_
    have hi : n.inflight[i]? = some ⟨t.action, t.list⟩ := by
      rw [hin, Flight.getElem?_answered hlen]
    simpa [orderly, hi, hme, huser] using hord
  | feed t x => exact view_feed h hr t x hin
  | post u b => exact view_post h hr u b hin
  | read u b => exact view_read h hr u b hin
  | deliver u b v' => exact view_deliver h hr u b v' hin
  | aside hk => exact view_nothing h hr hin (Or.inl hk)
  | edited => exact view_nothing h hr hin (Or.inr ⟨_, _, rfl⟩)

/-- Every action is a step of the pair, if an upload draws an unused identifier. -/
theorem view_step_act {n n' : Net} {o : Action} {v a : Uid} {s : Firestore} (h : n.Coherent)
    (hfed : n.FedFrom s) (hun : unused s v (.act o) = true)
    (hord : n.orderly v a (.act o) = true) (hstep : n.step (.act o) = some n') :
    FanOut.Step (n.view v a) (n'.view v a) := by
  obtain ⟨hfresh, rfl⟩ := step_act hstep
  -- what the pair sees of the calls the action issues
  have hview : ∀ ρs, (o.calls.map fun k => (⟨o, k⟩ : Pending)).filterMap (Pending.role v a) = ρs →
      (n.start o).view v a = { n.view v a with flight := (n.view v a).flight ++ ρs } := by
    rintro ρs rfl
    simp only [view, start, Flight.issue, List.filterMap_append]
  have hstill : (o.calls.map fun k => (⟨o, k⟩ : Pending)).filterMap (Pending.role v a) = [] →
      FanOut.Step (n.view v a) ((n.start o).view v a) := by
    intro hnone
    rw [hview [] hnone, List.append_nil]
    exact .elsewhere fun _ _ => Iff.rfl
  rcases o.calls_cases with hc | ⟨t, rfl, hc⟩ | ⟨u, b, rfl, hc⟩ | ⟨hc, -⟩
  · exact hstill (by rw [hc]; rfl)
  · by_cases hv : t.me = v ∧ t.user.uid = a
    · rw [hview [.note t.didFan] (by rw [hc]; simp [hv])]
      refine .subscribe fun ρ hρ => ?_
      have hidle : n.idle v a = true := by
        simpa [orderly, Tap.action, hv] using hord
      simpa using List.all_eq_true.mp hidle ρ hρ
    · exact hstill (by rw [hc]; simp [hv])
  · by_cases hb : b = a
    · subst hb
      have hx := not_known_of_fresh hfresh
      rw [hview [.post u.ref, .read u.ref] (by rw [hc]; simp)]
      -- the identifier is fresh and unused, so the feed does not name it
      exact .publish (fun hk => hx b ((known_view h.stemmed).mp hk)) (hfed.not_fed hfresh hun)
    · exact hstill (by rw [hc]; simp [hb])
  · refine hstill (List.filterMap_eq_nil_iff.mpr fun p hp => ?_)
    obtain ⟨k, hk, rfl⟩ := List.mem_map.mp hp
    rcases hc k hk with hk | ⟨auth, ref, rfl⟩
    · exact role_aside hk
    · exact role_edited

end Net

end Toontagram
