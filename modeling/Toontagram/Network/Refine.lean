import Toontagram.Document.Kept
import Toontagram.Network.Effect
import Toontagram.Network.Script

/-!
# The app refines the network

A network is stored in the documents twice where it is a relation that is asked from both
sides: the stars and the fans, the likes of a reader and of a cartoon
(`Network.StoredIn`). One operation, whatever the order of its answers, takes the
documents of a network to those of the network after it (`StoredIn.script`), and so a run
in which each operation is finished before the next one starts is a run of the network
(`App.sequential`).
-/

namespace Toontagram

open Lib (Along Compatible DocWrite Store put run)

/-- The documents of a network. -/
structure Network.StoredIn (N : Network) (s : Firestore) : Prop where
  users : s.Tabled (fun uid => ⟨.user, uid⟩) N.users
  cartoons : s.Tabled (fun x => ⟨.cartoon, x⟩) N.cartoons
  comments : s.Tabled (fun p => ⟨.comments p.1, p.2⟩) N.comments
  stars : s.Marked (fun p => ⟨.userStar p.1, p.2⟩) N.fans
  fans : s.Marked (fun p => ⟨.userFan p.2, p.1⟩) N.fans
  cartoonLikes : s.Marked (fun p => ⟨.cartoonLikes p.2, p.1⟩) N.likes
  userLikes : s.Marked (fun p => ⟨.userLikes p.1, p.2⟩) N.likes
  feed : s.Marked (fun p => ⟨.userFeed p.1, p.2⟩) N.feed

namespace Network.StoredIn

variable {N : Network} {s s' : Firestore}

theorem empty : Network.empty.StoredIn ∅ := by
  have hmarks : ∀ {α : Type} {ref : α → DocRef}, Store.Marked (∅ : Firestore) ref ∅ :=
    fun _ => iff_of_false Bool.false_ne_true id
  exact ⟨fun _ => rfl, fun _ => rfl, fun _ => rfl, hmarks, hmarks, hmarks, hmarks, hmarks⟩

/-- Notifications are not part of the network. -/
theorem congr (h : N.StoredIn s)
    (hsame : ∀ ref, isFeedback ref = false → s'.lookup ref = s.lookup ref) : N.StoredIn s' := by
  have htable : ∀ {α : Type} {ref : α → DocRef} {f : α → Option Dictionary},
      (∀ a, isFeedback (ref a) = false) → s.Tabled ref f → s'.Tabled ref f :=
    fun href h a => (hsame _ (href a)).trans (h a)
  have hmarks : ∀ {α : Type} {ref : α → DocRef} {A : Set α},
      (∀ a, isFeedback (ref a) = false) → s.Marked ref A → s'.Marked ref A := by
    intro α ref A href h a
    rw [Store.has, hsame _ (href a)]
    exact h a
  exact ⟨htable (fun _ => rfl) h.users, htable (fun _ => rfl) h.cartoons,
    htable (fun _ => rfl) h.comments, hmarks (fun _ => rfl) h.stars, hmarks (fun _ => rfl) h.fans,
    hmarks (fun _ => rfl) h.cartoonLikes, hmarks (fun _ => rfl) h.userLikes,
    hmarks (fun _ => rfl) h.feed⟩

/-- The query for the cartoons of an author finds those of the network. -/
theorem mem_cartoonsOf (h : N.StoredIn s) {author : Uid} {x : DocID} :
    (∃ data, (x, data) ∈ (cartoonsOf author).documents s) ↔ x ∈ N.cartoonsBy author := by
  have hx : ∀ data, (x, data) ∈ (cartoonsOf author).documents s ↔
      N.cartoons x = some data ∧ data "uid" = some (.string author) := by
    intro data
    rw [← h.cartoons x]
    simp only [cartoonsOf, Query.documents, List.mem_filter, decide_eq_true_eq,
      Store.mem_documents]
  exact exists_congr hx

theorem mem_fans (h : N.StoredIn s) {author v : Uid} :
    (∃ data, (v, data) ∈ Query.documents { collection := .userFan author } s) ↔
      (v, author) ∈ N.fans := by
  rw [← h.fans (v, author), Store.has, Option.isSome_iff_exists]
  exact exists_congr fun data => Store.mem_documents

/-! ## One operation -/

section write

variable {w : Write}

/-- A write of a profile. -/
theorem user (h : N.StoredIn s) {uid : Uid} (hw : w.ref = ⟨.user, uid⟩) :
    StoredIn { N with users := Function.update N.users uid ((w.apply s).lookup ⟨.user, uid⟩) }
      (w.apply s) where
  users := h.users.apply (fun _ _ => by simp) hw
  cartoons := h.cartoons.apply_beside (by simp [hw])
  comments := h.comments.apply_beside (by simp [hw])
  stars := h.stars.apply_beside (by simp [hw])
  fans := h.fans.apply_beside (by simp [hw])
  cartoonLikes := h.cartoonLikes.apply_beside (by simp [hw])
  userLikes := h.userLikes.apply_beside (by simp [hw])
  feed := h.feed.apply_beside (by simp [hw])

/-- A write of a cartoon. -/
theorem cartoon (h : N.StoredIn s) {x : DocID} (hw : w.ref = ⟨.cartoon, x⟩) :
    StoredIn { N with cartoons := Function.update N.cartoons x ((w.apply s).lookup ⟨.cartoon, x⟩) }
      (w.apply s) where
  users := h.users.apply_beside (by simp [hw])
  cartoons := h.cartoons.apply (fun _ _ => by simp) hw
  comments := h.comments.apply_beside (by simp [hw])
  stars := h.stars.apply_beside (by simp [hw])
  fans := h.fans.apply_beside (by simp [hw])
  cartoonLikes := h.cartoonLikes.apply_beside (by simp [hw])
  userLikes := h.userLikes.apply_beside (by simp [hw])
  feed := h.feed.apply_beside (by simp [hw])

theorem updateCartoon (h : N.StoredIn s) (x : DocID) (fields : Dictionary) :
    (N.updateCartoon x fields).StoredIn ((DocWrite.updateData ⟨.cartoon, x⟩ fields).apply s) := by
  have hlookup := Store.lookup_apply_updateData s ⟨.cartoon, x⟩ ⟨.cartoon, x⟩ fields
  rw [if_pos rfl, h.cartoons x] at hlookup
  have hwrite := h.cartoon (w := .updateData ⟨.cartoon, x⟩ fields) rfl
  rw [hlookup] at hwrite
  exact hwrite

/-- A comment is written. -/
theorem comment (h : N.StoredIn s) (x id : DocID) (data : Dictionary) :
    StoredIn { N with comments := Function.update N.comments (x, id) (some data) }
      ((DocWrite.setData ⟨.comments x, id⟩ data).apply s) where
  users := h.users.apply_beside (by simp)
  cartoons := h.cartoons.apply_beside (by simp)
  comments := by
    have hwrite := h.comments.apply (w := .setData ⟨.comments x, id⟩ data) (a := (x, id))
      (fun _ _ => by simp [Prod.ext_iff]) rfl
    rw [Store.lookup_apply_setData_self] at hwrite
    exact hwrite
  stars := h.stars.apply_beside (by simp)
  fans := h.fans.apply_beside (by simp)
  cartoonLikes := h.cartoonLikes.apply_beside (by simp)
  userLikes := h.userLikes.apply_beside (by simp)
  feed := h.feed.apply_beside (by simp)

end write

/-- Marks of the three relations. -/
theorem marks (h : N.StoredIn s) {b : Bool} {ws : List Write} (hws : Lib.Marks b ws)
    {F : Set (Uid × Uid)} {L D : Set (Uid × DocID)}
    (hplain : ∀ ref ∈ ws.map DocWrite.ref, ref.collection ≠ .user ∧ ref.collection ≠ .cartoon ∧
      ∀ x, ref.collection ≠ .comments x)
    (hstars : ∀ p : Uid × Uid, ⟨.userStar p.1, p.2⟩ ∈ ws.map DocWrite.ref ↔ p ∈ F)
    (hfans : ∀ p : Uid × Uid, ⟨.userFan p.2, p.1⟩ ∈ ws.map DocWrite.ref ↔ p ∈ F)
    (hcartoonLikes : ∀ p : Uid × DocID, ⟨.cartoonLikes p.2, p.1⟩ ∈ ws.map DocWrite.ref ↔ p ∈ L)
    (huserLikes : ∀ p : Uid × DocID, ⟨.userLikes p.1, p.2⟩ ∈ ws.map DocWrite.ref ↔ p ∈ L)
    (hfeed : ∀ p : Uid × DocID, ⟨.userFeed p.1, p.2⟩ ∈ ws.map DocWrite.ref ↔ p ∈ D) :
    StoredIn { N with fans := put b F N.fans, likes := put b L N.likes, feed := put b D N.feed }
      (s.play ws) where
  users := h.users.play_beside fun _ href => (hplain _ href).1 rfl
  cartoons := h.cartoons.play_beside fun _ href => (hplain _ href).2.1 rfl
  comments := h.comments.play_beside fun _ href => (hplain _ href).2.2 _ rfl
  stars := h.stars.play hws hstars
  fans := h.fans.play hws hfans
  cartoonLikes := h.cartoonLikes.play hws hcartoonLikes
  userLikes := h.userLikes.play hws huserLikes
  feed := h.feed.play hws hfeed

/-- A follow from a profile screen, or an unfollow. -/
theorem didTapButton (h : N.StoredIn s) {me : Uid} (currentUser : User) (vc : ProfileID)
    {user : User} (hme : me ≠ user.uid) :
    ((N.fan (!user.fan) me user.uid).feedWith (!user.fan) me user.uid).StoredIn
      (s.play
        ((Operation.action (.didTapButton (some me) (some currentUser) vc user)).script s)) := by
  have heffect : (N.fan (!user.fan) me user.uid).feedWith (!user.fan) me user.uid =
      { N with
        fans := put (!user.fan) {(me, user.uid)} N.fans
        likes := put (!user.fan) ∅ N.likes
        feed := put (!user.fan) {p | p.1 = me ∧ p.2 ∈ N.cartoonsBy user.uid} N.feed } := by
    rw [Lib.put_empty]
    rfl
  rw [Operation.script_didTapButton s currentUser vc hme, heffect]
  refine h.marks (Lib.marks_map _ _ _).cons.cons ?_ ?_ ?_ ?_ ?_ ?_
  · intro ref href
    simp only [List.map_cons, List.map_map, List.mem_cons, List.mem_map, DocWrite.ref_mark,
      Function.comp_apply] at href
    rcases href with rfl | rfl | ⟨doc, -, rfl⟩ <;> simp
  · simp
  · simp [and_comm]
  · simp
  · simp
  · intro p
    simp [← h.mem_cartoonsOf, and_comm, eq_comm]

/-- A follow from the notifications, or an unfollow. -/
theorem fanOnly (h : N.StoredIn s) (b : Bool) (me uid : Uid) :
    (N.fan b me uid).StoredIn
      (s.play [.mark b ⟨.userStar me, uid⟩, .mark b ⟨.userFan uid, me⟩]) := by
  have heffect : N.fan b me uid =
      { N with fans := put b {(me, uid)} N.fans, likes := put b ∅ N.likes,
               feed := put b ∅ N.feed } := by
    rw [Lib.put_empty, Lib.put_empty]
    rfl
  rw [heffect]
  refine h.marks (Lib.Marks.nil b).cons.cons ?_ ?_ ?_ ?_ ?_ ?_ <;> simp [and_comm]

/-- The marks of a like. -/
theorem like (h : N.StoredIn s) (b : Bool) (me : Uid) (x : DocID) :
    (N.like b me x).StoredIn
      (s.play [.mark b ⟨.cartoonLikes x, me⟩, .mark b ⟨.userLikes me, x⟩]) := by
  have heffect : N.like b me x =
      { N with fans := put b ∅ N.fans, likes := put b {(me, x)} N.likes,
               feed := put b ∅ N.feed } := by
    rw [Lib.put_empty, Lib.put_empty]
    rfl
  rw [heffect]
  refine h.marks (Lib.Marks.nil b).cons.cons ?_ ?_ ?_ ?_ ?_ ?_ <;> simp [and_comm]

/-- A new cartoon goes to the fans of its author. -/
theorem upload (h : N.StoredIn s) (me : Uid) (u : CartoonService.Upload) :
    (N.upload me u).StoredIn
      (s.play ((Operation.action (.uploadCartoon (some me) u)).script s)) := by
  have hcartoon := h.cartoon (w := .setData ⟨.cartoon, u.ref⟩ (u.data me)) rfl
  rw [Store.lookup_apply_setData_self] at hcartoon
  have heffect : N.upload me u =
      { N with
        cartoons := Function.update N.cartoons u.ref (some (u.data me))
        fans := put true ∅ N.fans
        likes := put true ∅ N.likes
        feed := put true {p | p.1 ∈ N.readers me ∧ p.2 = u.ref} N.feed } := by
    rw [Lib.put_empty, Lib.put_empty]
    rfl
  rw [Operation.script_uploadCartoon, heffect]
  refine hcartoon.marks ((Lib.marks_map _ _ _).append (Lib.Marks.nil true).cons) ?_ ?_ ?_ ?_ ?_ ?_
  · intro ref href
    simp only [List.map_cons, List.map_append, List.map_map, List.map_nil, List.mem_cons,
      List.mem_append, List.mem_map, DocWrite.ref_mark, List.not_mem_nil, or_false,
      Function.comp_apply] at href
    rcases href with ⟨doc, -, rfl⟩ | rfl <;> simp
  · simp
  · simp
  · simp
  · simp
  · intro p
    simp only [readers, ← h.mem_fans, List.map_append, List.map_map, List.mem_append,
      List.mem_map, Set.mem_ofPred_eq]
    simp [eq_comm, or_and_right, or_comm]

/-- One operation takes the documents of a network to those of the network after it. -/
theorem script (h : N.StoredIn s) (o : Operation) :
    (N.perform o).StoredIn (s.play (o.script s)) := by
  cases o with
  | action a =>
    cases a with
    | didTapButton auth tabUser vc user =>
      cases auth with
      | none =>
        rw [Operation.script_header_out]
        exact h
      | some me =>
        by_cases hme : me = user.uid
        · rw [Operation.script_header_self s tabUser vc hme]
          cases tabUser with
          | none => exact h
          | some currentUser =>
            rw [Network.perform, if_pos hme]
            exact h
        · cases tabUser with
          | none => exact h
          | some currentUser =>
            rw [Network.perform, if_neg hme]
            exact h.didTapButton currentUser vc hme
    | uploadCartoon auth u =>
      cases auth with
      | none => exact h
      | some me => exact h.upload me u
    | likeCartoon auth cartoon user =>
      cases auth with
      | none => exact h
      | some me => exact (h.updateCartoon _ _).like true me cartoon.cartoonId
    | unLikeCartoon auth cartoon =>
      cases auth with
      | none => exact h
      | some me =>
        by_cases hlike : cartoon.like > 0
        · rw [Operation.script_unLikeCartoon s me hlike, Network.perform, if_pos hlike]
          exact (h.updateCartoon _ _).like false me cartoon.cartoonId
        · rw [Operation.script_unLikeCartoon_zero s me hlike, Network.perform, if_neg hlike]
          exact h
    | editCartoon auth type x title caption => exact h.updateCartoon x _
  | loadComment auth tabUser cartoon comment m =>
    cases tabUser with
    | none => exact h
    | some currentUser => exact h.comment cartoon.cartoonId m.autoID _
  | fan auth uid =>
    cases auth with
    | none => exact h
    | some me => exact h.fanOnly true me uid
  | unFan auth uid =>
    cases auth with
    | none => exact h
    | some me => exact h.fanOnly false me uid
  | deleteCartoon auth cartoon =>
    have hwrite := h.cartoon (w := .delete ⟨.cartoon, cartoon.cartoonId⟩) rfl
    rw [Store.lookup_apply_delete, if_pos rfl] at hwrite
    exact hwrite
  | editUserData auth user str intro =>
    have hlookup := Store.lookup_apply_updateData s ⟨.user, user.uid⟩ ⟨.user, user.uid⟩
      (UserService.edited str intro)
    rw [if_pos rfl, h.users user.uid] at hlookup
    have hwrite := h.user (w := .updateData ⟨.user, user.uid⟩ (UserService.edited str intro)) rfl
    rw [hlookup] at hwrite
    exact hwrite
  | userRegister r =>
    have hwrite := h.user (w := .setData ⟨.user, r.uid⟩ r.data) rfl
    rw [Store.lookup_apply_setData_self] at hwrite
    exact hwrite

end Network.StoredIn

/-! ## Runs -/

/-- The network after an event of the app. -/
def Network.after (N : Network) : App.Event → Network
  | .act o => N.perform o
  | _ => N

namespace App

/-- Operations one after the other, and no call fails. -/
def sequentially (n : App) : Event → Bool
  | .act _ => n.inflight.isEmpty
  | .answer _ r => r.ok
  | _ => true

/-- The network is stored, or the operation that leads to it is under way. -/
def Performs (N : Network) (n : App) : Prop :=
  n.Quiet ∧ N.StoredIn n.state.store ∨
  ∃ (m : App) (o : Operation) (N₀ : Network), N = N₀.perform o ∧ N₀.StoredIn m.state.store ∧
    (settling _ (o.compatible m.state.store) m.state.store).Since (m.start o) n

variable {N : Network} {n n' : App}

/-- When all calls are answered, the network is stored. -/
theorem Performs.storedIn (h : Performs N n) (hn : n.Quiet) : N.StoredIn n.state.store := by
  rcases h with ⟨-, h⟩ | ⟨m, o, N₀, rfl, h, hsince⟩
  · exact h
  · exact (h.script o).congr fun ref hbeside => Operation.settled hsince hn hbeside

theorem Performs.act (h : Performs N n) (hn : n.Quiet) (o : Operation) :
    Performs (N.perform o) (n.start o) := by
  refine Or.inr ⟨n, o, N, rfl, h.storedIn hn, .refl (.refl _ _) fun t ht => ?_⟩
  rcases mem_start ht with ht | ⟨k, hk, rfl⟩
  · rw [hn] at ht
    cases ht
  · exact Operation.plays _ hk

theorem Performs.answer (h : Performs N n) {i : Nat} {r : Reply} (hr : r.ok = true)
    (hstep : n.step (.answer i r) = some n') : Performs N n' := by
  rcases h with ⟨hn, -⟩ | ⟨m, o, N₀, hN, h, hsince⟩
  · -- nothing is in flight that could be answered
    obtain ⟨pre, t, post, hin, -⟩ := step_answer hstep
    rw [hn] at hin
    cases pre <;> cases hin
  · exact Or.inr ⟨m, o, N₀, hN, h, hsince.answer hr hstep⟩

theorem Performs.step (h : Performs N n) {e : Event} (hseq : n.sequentially e = true)
    (hstep : n.step e = some n') : Performs (N.after e) n' := by
  cases e with
  | act o =>
    obtain ⟨-, -, rfl⟩ := step_act hstep
    exact h.act (List.isEmpty_iff.mp hseq) o
  | answer i r => exact h.answer hseq hstep
  | fetchCartoon cartoonID r | fetchFeedBack uid now =>
    obtain rfl := Option.some.inj hstep
    rcases h with h | ⟨m, o, N₀, hN, h, hsince⟩
    · exact Or.inl h
    · exact Or.inr ⟨m, o, N₀, hN, h, hsince.inv, hsince.valid, hsince.owed, hsince.view, hsince.due⟩

theorem Performs.run : ∀ (es : List Event) {N : Network} {n n' : App}, Performs N n →
    Along App.step (fun n e => n.sequentially e = true) n es →
    Lib.run App.step n es = some n' → Performs (es.foldl Network.after N) n'
  | [], N, n, n', h, _, hrun => by
    obtain rfl := Option.some.inj hrun
    exact h
  | e :: es, N, n, n', h, hseq, hrun => by
    obtain ⟨n₁, hstep, hrest⟩ := Lib.run_cons hrun
    obtain ⟨hok, hseq⟩ := hseq
    rw [hstep] at hseq
    exact Performs.run es (h.step hok hstep) hseq hrest

/-- Every run of operations one after the other, each with its answers in any order,
takes the documents of a network to those of the network that has performed the
operations. -/
theorem sequential {es : List Event} (hN : N.StoredIn n.state.store) (hn : n.Quiet)
    (hseq : Along App.step (fun n e => n.sequentially e = true) n es)
    (hrun : run App.step n es = some n') (hn' : n'.Quiet) :
    (es.foldl Network.after N).StoredIn n'.state.store :=
  (Performs.run es (Or.inl ⟨hn, hN⟩) hseq hrun).storedIn hn'

/-- The author uploads a cartoon and the reader begins to follow, the queries answered
before the writes that have been issued with them. -/
def discovery : List Event :=
  let reader := User.init (.ofList [("uid", .string "reader")])
  let author := User.init (.ofList [("uid", .string "author")])
  [uploadByAuthor "c", success 1, success 1, success 0,
   .act (.action (.didTapButton (some "reader") (some reader) 0 author)),
   success 0, success 0, success 1, success 1, success 0]

theorem sequential_discovery : ∃ n, run App.step (opened ∅) discovery = some n ∧
    (discovery.foldl Network.after Network.empty).StoredIn n.state.store ∧
    ("reader", "c") ∈ (discovery.foldl Network.after Network.empty).feed := by
  have hrun : run App.step (opened ∅) discovery =
      some ((run App.step (opened ∅) discovery).get (by decide)) := (Option.some_get _).symm
  have hquiet : (opened ∅).Quiet := rfl
  have hstored := sequential Network.StoredIn.empty hquiet (by decide) hrun (by decide)
  exact ⟨_, hrun, hstored, (hstored.feed ("reader", "c")).mp (by decide)⟩

end App

end Toontagram
