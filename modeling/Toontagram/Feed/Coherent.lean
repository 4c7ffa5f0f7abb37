import Toontagram.Feed.Stem

/-!
# Authors, feeds and what is in flight

Facts about the whole system that hold in every run without errors, whoever
acts and however the answers interleave (`Coherent`):

- a cartoon, stored or on its way, has one author;
- a feed is edited on account of a tap only for cartoons of the tapped user.

Beyond what it named at the start, a feed only names cartoons that are stored
or on their way (`FedFrom`).

They come from one inversion lemma for each collection: `Stems.author_exec`,
`Stems.leavesAt_feed`, `Stems.leavesAt_star` and `Stems.leavesAt_fan` say which
answers can change a document of it, and `Stems.spawned` which calls can follow.
-/

namespace Toontagram

open Lib (DocWrite Flight Store)
open CartoonService (Upload)

/-- The `uid` field of a stored cartoon. -/
def author (s : Firestore) (x : DocID) : Option Value :=
  (s.lookup ⟨.cartoon, x⟩).bind fun data => data "uid"

section author

variable {s : Firestore} {w : Write} {x : DocID}

theorem author_apply_ne (h : w.ref.collection ≠ .cartoon) :
    author (w.apply s) x = author s x := by
  rw [author, Store.lookup_apply_ne (fun e => h (by rw [e])), author]

/-- A write aside keeps every author. -/
theorem author_apply_aside (h : AsideWrite w) : author (w.apply s) x = author s x := by
  cases w with
  | setData ref data =>
    exact author_apply_ne fun (e : ref.collection = .cartoon) => by simp [AsideWrite, e,
      Collection.aside] at h
  | delete ref =>
    exact author_apply_ne fun (e : ref.collection = .cartoon) => by simp [AsideWrite, e,
      Collection.aside] at h
  | updateData ref fields =>
    rw [author, Store.lookup_apply_updateData, author]
    split
    next =>
      -- an update of a cartoon replaces other fields than `uid`
      cases s.lookup ⟨.cartoon, x⟩ with
      | none => rfl
      | some data => exact Lib.Fields.merge_of_none h.2
    next => rfl

theorem author_apply_post (u : Upload) (a : Uid) :
    author ((DocWrite.setData ⟨.cartoon, u.ref⟩ (u.data a)).apply s) x =
      if u.ref = x then some (.string a) else author s x := by
  rw [author, Store.lookup_apply_setData, author]
  by_cases h : u.ref = x
  · rw [if_pos h, if_pos (by rw [h])]
    rfl
  · rw [if_neg h, if_neg fun e => h (Lib.DocRef.mk.inj e).2]

/-- A write aside says nothing about a document of the feed. -/
theorem leavesAt_aside {ref : DocRef} (h : AsideWrite w) (hr : ref.collection.aside = false) :
    w.leavesAt ref = none := by
  rw [DocWrite.leavesAt]
  split
  next e =>
    subst e
    cases w with
    | setData ref data => exact absurd (hr.symm.trans h) (by simp)
    | delete ref => exact absurd (hr.symm.trans h) (by simp)
    | updateData ref fields => rfl
  next => rfl

end author

/-- The query of a tap finds the cartoons of the tapped user. -/
theorem Tap.mem_found {t : Tap} {s : Firestore} {x : DocID} :
    x ∈ t.found s ↔ author s x = some (.string t.user.uid) := by
  simp only [found, Query.documents, List.mem_map, List.mem_filter, decide_eq_true_eq]
  constructor
  · rintro ⟨⟨id, data⟩, ⟨hmem, huid⟩, rfl⟩
    rw [author, Store.mem_documents.mp hmem]
    exact huid
  · intro h
    obtain ⟨data, hdata, huid⟩ := Option.bind_eq_some_iff.mp h
    exact ⟨(x, data), ⟨Store.mem_documents.mpr hdata, huid⟩, rfl⟩

/-! ## What an answer can change -/

section exec

variable {o : Action} {k : Call} {r : Reply} {s : Firestore}

/-- Only the call that adds a cartoon gives it an author. -/
theorem Stems.author_exec (h : Stems o k) (hr : r.ok = true) (x : DocID) :
    author (k.exec r s).1 x = author s x ∨
    ∃ (u : Upload) (a : Uid), o = u.action a ∧ k = u.post a ∧ u.ref = x ∧
      author (k.exec r s).1 x = some (.string a) := by
  cases h with
  | star t =>
    rw [t.star_exec hr]
    exact Or.inl (author_apply_ne (by simp))
  | enrol t =>
    rw [t.enrol_exec hr]
    exact Or.inl (author_apply_ne (by simp))
  | list t =>
    rw [t.list_exec hr]
    exact Or.inl rfl
  | feed t y =>
    rw [t.feed_exec y hr]
    exact Or.inl (author_apply_ne (by simp))
  | post u a =>
    rw [u.post_exec a hr, author_apply_post]
    by_cases hx : u.ref = x
    · exact Or.inr ⟨u, a, rfl, rfl, hx, if_pos hx⟩
    · exact Or.inl (if_neg hx)
  | read u a =>
    rw [u.read_exec a hr]
    exact Or.inl rfl
  | deliver u a v =>
    rw [u.deliver_exec a v hr]
    exact Or.inl (author_apply_ne (by simp))
  | aside hk =>
    obtain ⟨w, hw, happly⟩ := (hk.exec hr).1
    rw [happly]
    exact Or.inl (author_apply_aside hw)
  | edited =>
    rw [edited_exec.1]
    exact Or.inl rfl

theorem Aside.leavesAt (h : Aside k) {ref : DocRef} (hr : ref.collection.aside = false) :
    k.leavesAt ref = none := by
  cases h with
  | write hw hc => exact leavesAt_aside hw hr

@[simp] theorem Tap.leavesAt_star (t : Tap) (ref : DocRef) :
    t.star.leavesAt ref =
      if ⟨.userStar t.me, t.user.uid⟩ = ref then some t.didFan else none := by
  simp [Tap.star, Call.leavesAt, DocWrite.leavesAt]

@[simp] theorem Tap.leavesAt_enrol (t : Tap) (ref : DocRef) :
    t.enrol.leavesAt ref =
      if ⟨.userFan t.user.uid, t.me⟩ = ref then some t.didFan else none := by
  simp [Tap.enrol, Call.leavesAt, DocWrite.leavesAt]

@[simp] theorem Tap.leavesAt_list (t : Tap) (ref : DocRef) : t.list.leavesAt ref = none := rfl

@[simp] theorem Tap.leavesAt_feed (t : Tap) (x : DocID) (ref : DocRef) :
    (t.feed x).leavesAt ref = if ⟨.userFeed t.me, x⟩ = ref then some t.didFan else none := by
  simp [Tap.feed, Call.leavesAt, DocWrite.leavesAt]

@[simp] theorem leavesAt_post (u : Upload) (a : Uid) (ref : DocRef) :
    (u.post a).leavesAt ref = if ⟨.cartoon, u.ref⟩ = ref then some true else none := rfl

@[simp] theorem leavesAt_read (u : Upload) (a : Uid) (ref : DocRef) :
    (u.read a).leavesAt ref = none := rfl

@[simp] theorem leavesAt_deliver (u : Upload) (a v : Uid) (ref : DocRef) :
    (u.deliver a v).leavesAt ref = if ⟨.userFeed v, u.ref⟩ = ref then some true else none := by
  simp [Upload.deliver, Call.leavesAt, DocWrite.leavesAt]

/-- A star is written by the first write of a tap. -/
theorem Stems.leavesAt_star (h : Stems o k) {v a : Uid} {b : Bool}
    (hb : k.leavesAt ⟨.userStar v, a⟩ = some b) :
    ∃ t : Tap, o = t.action ∧ k = t.star ∧ t.me = v ∧ t.user.uid = a ∧ t.didFan = b := by
  cases h with
  | star t =>
    rw [t.leavesAt_star, Option.ite_none_right_eq_some, Option.some.injEq] at hb
    obtain ⟨e, rfl⟩ := hb
    cases e
    exact ⟨t, rfl, rfl, rfl, rfl, rfl⟩
  | aside hk =>
    rw [hk.leavesAt rfl] at hb
    cases hb
  | enrol t => simp at hb
  | feed t x => simp at hb
  | post u a => simp at hb
  | deliver u a v => simp at hb
  | list t => cases hb
  | read u a => cases hb
  | edited => cases hb

/-- A fan is written by the second write of a tap. -/
theorem Stems.leavesAt_fan (h : Stems o k) {a v : Uid} {b : Bool}
    (hb : k.leavesAt ⟨.userFan a, v⟩ = some b) :
    ∃ t : Tap, o = t.action ∧ k = t.enrol ∧ t.me = v ∧ t.user.uid = a ∧ t.didFan = b := by
  cases h with
  | enrol t =>
    rw [t.leavesAt_enrol, Option.ite_none_right_eq_some, Option.some.injEq] at hb
    obtain ⟨e, rfl⟩ := hb
    cases e
    exact ⟨t, rfl, rfl, rfl, rfl, rfl⟩
  | aside hk =>
    rw [hk.leavesAt rfl] at hb
    cases hb
  | star t => simp at hb
  | feed t x => simp at hb
  | post u a => simp at hb
  | deliver u a v => simp at hb
  | list t => cases hb
  | read u a => cases hb
  | edited => cases hb

/-- A feed is written by a delivery of an upload or by an edit of a tap. -/
theorem Stems.leavesAt_feed (h : Stems o k) {v : Uid} {x : DocID} {b : Bool}
    (hb : k.leavesAt ⟨.userFeed v, x⟩ = some b) :
    (∃ (u : Upload) (a : Uid), o = u.action a ∧ k = u.deliver a v ∧ u.ref = x ∧ b = true) ∨
    ∃ t : Tap, o = t.action ∧ k = t.feed x ∧ t.me = v ∧ t.didFan = b := by
  cases h with
  | feed t y =>
    rw [t.leavesAt_feed, Option.ite_none_right_eq_some, Option.some.injEq] at hb
    obtain ⟨e, rfl⟩ := hb
    cases e
    exact Or.inr ⟨t, rfl, rfl, rfl, rfl⟩
  | deliver u a v' =>
    rw [leavesAt_deliver, Option.ite_none_right_eq_some, Option.some.injEq] at hb
    obtain ⟨e, rfl⟩ := hb
    cases e
    exact Or.inl ⟨u, a, rfl, rfl, rfl, rfl⟩
  | aside hk =>
    rw [hk.leavesAt rfl] at hb
    cases hb
  | star t => simp at hb
  | enrol t => simp at hb
  | post u a => simp at hb
  | list t => cases hb
  | read u a => cases hb
  | edited => cases hb

/-- What follows a call: no new cartoon, and on account of a tap only edits for
cartoons of the tapped user. -/
theorem Stems.spawned (h : Stems o k) (hr : r.ok = true) :
    ∀ k' ∈ (k.exec r s).2.calls, (∀ x, k'.leavesAt ⟨.cartoon, x⟩ = none) ∧
      ∀ (t : Tap) (v : Uid) (x : DocID) (b : Bool), o = t.action →
        k'.leavesAt ⟨.userFeed v, x⟩ = some b → author s x = some (.string t.user.uid) := by
  intro k' hk'
  have haside : Aside k' → (∀ x, k'.leavesAt ⟨.cartoon, x⟩ = none) ∧
      ∀ (t : Tap) (v : Uid) (x : DocID) (b : Bool), o = t.action →
        k'.leavesAt ⟨.userFeed v, x⟩ = some b → author s x = some (.string t.user.uid) := by
    intro hk
    refine ⟨fun x => hk.leavesAt rfl, fun t v x b _ hb => ?_⟩
    rw [hk.leavesAt rfl] at hb
    cases hb
  cases h with
  | star t =>
    rw [t.star_exec hr] at hk'
    rw [List.mem_singleton.mp hk']
    simp
  | enrol t =>
    obtain ⟨back, hback, hcalls⟩ := t.enrol_calls (r := r) (s := s)
    rw [hcalls, List.mem_append, List.mem_singleton] at hk'
    rcases hk' with hk' | rfl
    · exact haside (hback k' hk').1
    · simp
  | list t =>
    rw [t.list_exec hr] at hk'
    obtain ⟨y, hy, rfl⟩ := List.mem_map.mp hk'
    refine ⟨fun x => by simp, ?_⟩
    intro t' v x b ho hb
    rw [t.leavesAt_feed, Option.ite_none_right_eq_some] at hb
    cases Tap.action_inj ho
    cases hb.1
    exact Tap.mem_found.mp hy
  | feed t x =>
    rw [t.feed_exec x hr] at hk'
    cases hk'
  | post u a =>
    rw [u.post_exec a hr] at hk'
    cases hk'
  | read u a =>
    rw [u.read_exec a hr] at hk'
    obtain ⟨v, rfl⟩ : ∃ v, k' = u.deliver a v := by
      rcases List.mem_append.mp hk' with hk' | hk'
      · obtain ⟨doc, -, rfl⟩ := List.mem_map.mp hk'
        exact ⟨doc.1, rfl⟩
      · exact ⟨a, List.mem_singleton.mp hk'⟩
    exact ⟨fun x => by simp, fun t _ _ _ ho => nomatch ho⟩
  | deliver u a v =>
    rw [u.deliver_exec a v hr] at hk'
    cases hk'
  | aside hk => exact haside ((hk.exec hr).2 k' hk')
  | edited =>
    rw [edited_exec.2] at hk'
    cases hk'

end exec

/-! ## The invariant -/

namespace Net

/-- The cartoon is on its way to the store. -/
def Posting (n : Net) (a : Uid) (x : DocID) : Prop :=
  ∃ u : Upload, u.ref = x ∧ ⟨u.action a, u.post a⟩ ∈ n.inflight

/-- The cartoon is the author's, stored or on its way. -/
def Known (n : Net) (a : Uid) (x : DocID) : Prop :=
  author n.state.store x = some (.string a) ∨ n.Posting a x

/-- What holds in every run without errors. -/
structure Coherent (n : Net) : Prop where
  stemmed : n.Stemmed
  one : ∀ a a' x, n.Known a x → n.Known a' x → a = a'
  uploaded : ∀ p ∈ n.inflight, ∀ (u : Upload) (a : Uid), p.origin = u.action a → n.Known a u.ref
  edited : ∀ p ∈ n.inflight, ∀ (t : Tap) (v : Uid) (x : DocID) (b : Bool), p.origin = t.action →
    p.call.leavesAt ⟨.userFeed v, x⟩ = some b →
    author n.state.store x = some (.string t.user.uid)

/-- An answer keeps what is known of the authors. -/
theorem Coherent.known_answer {n n' : Net} {i : Nat} {r : Reply} (h : n.Coherent)
    (hok : r.ok = true) (hstep : n.step (.answer i r) = some n') (a : Uid) (x : DocID) :
    n'.Known a x ↔ n.Known a x := by
  obtain ⟨pre, p, post, hin, -, rfl⟩ := step_answer hstep
  have hp : p ∈ n.inflight := by rw [hin]; simp
  have hstem := h.stemmed p hp
  have hauthor := hstem.author_exec hok x (s := n.state.store)
  constructor
  · rintro (hx | ⟨u, hu, hmem⟩)
    · rw [Pending.exec_store] at hx
      rcases hauthor with he | ⟨u, a', ho, hk, hu, he⟩
      · exact Or.inl (he.symm.trans hx)
      · have : a' = a := by simpa using he.symm.trans hx
        subst this
        refine Or.inr ⟨u, hu, ?_⟩
        rw [← ho, ← hk]
        exact hp
    · rcases mem_answered hin hmem with hmem | ⟨k, hk, e⟩
      · exact Or.inr ⟨u, hu, hmem⟩
      · -- no closure adds a cartoon
        have := (hstem.spawned hok k hk).1 u.ref
        rw [← (Pending.mk.inj e).2] at this
        simp at this
  · intro hx
    rcases hauthor with he | ⟨u, a', ho, hk, hu, he⟩
    · rcases hx with hx | ⟨u, hu, hmem⟩
      · exact Or.inl (by rw [Pending.exec_store, he]; exact hx)
      · rw [hin] at hmem
        rcases Flight.mem_answered (p.exec r n.state).2 hmem with e | hmem
        · left
          rw [Pending.exec_store, ← e]
          show author ((u.post a).exec r n.state.store).1 x = _
          rw [u.post_exec a hok, author_apply_post, if_pos hu]
        · exact Or.inr ⟨u, hu, hmem⟩
    · have hx' : n.Known a' x := Or.inr ⟨u, hu, by rw [← ho, ← hk]; exact hp⟩
      left
      rw [Pending.exec_store, he, h.one a a' x hx hx']

theorem Coherent.answer {n n' : Net} {i : Nat} {r : Reply} (h : n.Coherent)
    (hok : r.ok = true) (hstep : n.step (.answer i r) = some n') : n'.Coherent := by
  have hknown := h.known_answer hok hstep
  have hstemmed := step_stemmed h.stemmed (e := .answer i r) hok hstep
  obtain ⟨pre, p, post, hin, -, rfl⟩ := step_answer hstep
  have hp : p ∈ n.inflight := by rw [hin]; simp
  have hstem := h.stemmed p hp
  refine ⟨hstemmed, ?_, ?_, ?_⟩
  · exact fun a a' x hx hx' => h.one a a' x ((hknown a x).mp hx) ((hknown a' x).mp hx')
  · intro q hq u a ho
    refine (hknown a u.ref).mpr ?_
    rcases mem_answered hin hq with hq | ⟨k, -, rfl⟩
    · exact h.uploaded q hq u a ho
    · exact h.uploaded p hp u a ho
  · intro q hq t v x b ho hl
    have hold : author n.state.store x = some (.string t.user.uid) := by
      rcases mem_answered hin hq with hq | ⟨k, hk, rfl⟩
      · exact h.edited q hq t v x b ho hl
      · exact (hstem.spawned hok k hk).2 t v x b ho hl
    rw [Pending.exec_store]
    rcases hstem.author_exec hok x (s := n.state.store) with he | ⟨u, a', ho', hk', hu, he⟩
    · rw [he]
      exact hold
    · -- a cartoon that is stored again keeps its author, since it has only one
      rw [he, h.one a' t.user.uid x (Or.inr ⟨u, hu, by rw [← ho', ← hk']; exact hp⟩) (Or.inl hold)]

theorem known_start (n : Net) (o : Action) (a : Uid) (x : DocID) :
    (n.start o).Known a x ↔ n.Known a x ∨ ∃ u : Upload, o = u.action a ∧ u.ref = x := by
  constructor
  · rintro (hx | ⟨u, hu, hmem⟩)
    · exact Or.inl (Or.inl hx)
    · rcases List.mem_append.mp hmem with hmem | hmem
      · exact Or.inl (Or.inr ⟨u, hu, hmem⟩)
      · obtain ⟨k, -, e⟩ := List.mem_map.mp hmem
        exact Or.inr ⟨u, (Pending.mk.inj e).1, hu⟩
  · rintro ((hx | ⟨u, hu, hmem⟩) | ⟨u, rfl, hu⟩)
    · exact Or.inl hx
    · exact Or.inr ⟨u, hu, List.mem_append_left _ hmem⟩
    · exact Or.inr ⟨u, hu, List.mem_append_right _ (List.mem_map.mpr ⟨u.post a, by simp
        [Upload.action, Action.calls, CartoonService.uploadCartoon, Upload.post], rfl⟩)⟩

/-- A fresh identifier is nobody's. -/
theorem not_known_of_fresh {n : Net} {u : Upload} {a : Uid} (h : n.fresh (u.action a) = true)
    (b : Uid) : ¬ n.Known b u.ref := by
  simp only [fresh, Upload.action, Action.newRef, Bool.and_eq_true, Bool.not_eq_true',
    List.all_eq_true] at h
  obtain ⟨hstored, hflight⟩ := h
  rintro (hx | ⟨u', hu, hmem⟩)
  · obtain ⟨data, hdata, -⟩ := Option.bind_eq_some_iff.mp hx
    rw [Store.has, hdata] at hstored
    cases hstored
  · have := hflight _ hmem
    simp [Upload.action, hu] at this

/-- No action edits a feed at once. -/
theorem calls_leavesAt_feed (o : Action) (v : Uid) (x : DocID) :
    ∀ k ∈ o.calls, k.leavesAt ⟨.userFeed v, x⟩ = none := by
  intro k hk
  rcases o.calls_cases with h | ⟨t, -, h⟩ | ⟨u, a, -, h⟩ | ⟨h, -⟩
  · rw [h] at hk
    cases hk
  · rw [h] at hk
    rw [List.mem_singleton.mp hk]
    simp
  · rw [h] at hk
    simp only [List.mem_cons, List.not_mem_nil, or_false] at hk
    rcases hk with rfl | rfl
    · simp
    · simp
  · rcases h k hk with h | ⟨auth, ref, rfl⟩
    · exact h.leavesAt rfl
    · rfl

theorem Coherent.act {n n' : Net} {o : Action} (h : n.Coherent)
    (hstep : n.step (.act o) = some n') : n'.Coherent := by
  have hstemmed := step_stemmed h.stemmed (e := .act o) rfl hstep
  obtain ⟨hfresh, rfl⟩ := step_act hstep
  have hfeed := calls_leavesAt_feed o
  refine ⟨hstemmed, ?_, ?_, ?_⟩
  · intro a a' x hx hx'
    rw [known_start] at hx hx'
    rcases hx with hx | ⟨u, rfl, rfl⟩
    · rcases hx' with hx' | ⟨u, rfl, rfl⟩
      · exact h.one a a' x hx hx'
      · exact absurd hx (not_known_of_fresh hfresh a)
    · rcases hx' with hx' | ⟨u', ho, -⟩
      · exact absurd hx' (not_known_of_fresh hfresh a')
      · exact (Upload.action_inj ho).2
  · intro p hp u a ho
    rw [known_start]
    rcases List.mem_append.mp hp with hp | hp
    · exact Or.inl (h.uploaded p hp u a ho)
    · obtain ⟨k, -, rfl⟩ := List.mem_map.mp hp
      exact Or.inr ⟨u, ho, rfl⟩
  · intro p hp t v x b ho hl
    rcases List.mem_append.mp hp with hp | hp
    · exact h.edited p hp t v x b ho hl
    · obtain ⟨k, hk, rfl⟩ := List.mem_map.mp hp
      rw [hfeed v x k hk] at hl
      cases hl

theorem Coherent.step {n n' : Net} {e : Event} (h : n.Coherent) (hok : Answered e = true)
    (hstep : n.step e = some n') : n'.Coherent := by
  cases e with
  | act o => exact h.act hstep
  | answer i r => exact h.answer hok hstep

theorem coherent_opened (s : Firestore) : (opened s).Coherent := by
  have hknown : ∀ {a x}, (opened s).Known a x → author s x = some (.string a) := by
    rintro a x (hx | ⟨u, -, hmem⟩)
    · exact hx
    · cases hmem
  refine ⟨stemmed_opened s, ?_, ?_, ?_⟩
  · intro a a' x hx hx'
    simpa using (hknown hx).symm.trans (hknown hx')
  · exact fun p hp => absurd hp List.not_mem_nil
  · exact fun p hp => absurd hp List.not_mem_nil

/-- What a feed names was named when the store was `s`, or is a cartoon that is
stored or on its way. -/
def FedFrom (s : Firestore) (n : Net) : Prop :=
  ∀ v x, n.state.store.has ⟨.userFeed v, x⟩ = true →
    s.has ⟨.userFeed v, x⟩ = true ∨ ∃ a, n.Known a x

theorem fedFrom_opened (s : Firestore) : (opened s).FedFrom s := fun _ _ => Or.inl

theorem FedFrom.answer {s : Firestore} {n n' : Net} {i : Nat} {r : Reply} (h : n.FedFrom s)
    (hc : n.Coherent) (hok : r.ok = true) (hstep : n.step (.answer i r) = some n') :
    n'.FedFrom s := by
  have hknown := hc.known_answer hok hstep
  obtain ⟨pre, p, post, hin, -, rfl⟩ := step_answer hstep
  have hp : p ∈ n.inflight := by rw [hin]; simp
  intro v x hv
  rw [Pending.exec_store, Call.has_exec_ok _ hok] at hv
  -- an entry is an old one, a delivery's or an edit's
  cases hl : p.call.leavesAt ⟨.userFeed v, x⟩ with
  | none =>
    rw [hl] at hv
    exact (h v x hv).imp_right fun ⟨a, ha⟩ => ⟨a, (hknown a x).mpr ha⟩
  | some b =>
    right
    rcases (hc.stemmed p hp).leavesAt_feed hl with ⟨u, a, ho, -, hu, -⟩ | ⟨t, ho, -, -, -⟩
    · exact ⟨a, (hknown a x).mpr (hu ▸ hc.uploaded p hp u a ho)⟩
    · exact ⟨t.user.uid, (hknown _ x).mpr (Or.inl (hc.edited p hp t v x b ho hl))⟩

theorem FedFrom.step {s : Firestore} {n n' : Net} {e : Event} (h : n.FedFrom s) (hc : n.Coherent)
    (hok : Answered e = true) (hstep : n.step e = some n') : n'.FedFrom s := by
  cases e with
  | answer i r => exact h.answer hc hok hstep
  | act o =>
    obtain ⟨-, rfl⟩ := step_act hstep
    intro v x hv
    exact (h v x hv).imp_right fun ⟨a, ha⟩ => ⟨a, (known_start n o a x).mpr (Or.inl ha)⟩

/-- The identifier of an upload is not one that a feed of `v` named when the
store was `s`. -/
def unused (s : Firestore) (v : Uid) : Event → Bool
  | .act (.uploadCartoon (some _) u) => !s.has ⟨.userFeed v, u.ref⟩
  | _ => true

/-- A fresh cartoon is not in the feed of `v` yet. -/
theorem FedFrom.not_fed {s : Firestore} {n : Net} {u : Upload} {v a : Uid} (h : n.FedFrom s)
    (hfresh : n.fresh (u.action a) = true) (hun : unused s v (.act (u.action a)) = true) :
    ¬ n.state.store.has ⟨.userFeed v, u.ref⟩ = true := by
  intro hv
  have hno : s.has ⟨.userFeed v, u.ref⟩ = false := by simpa [unused, Upload.action] using hun
  rcases h v u.ref hv with hold | ⟨b, hb⟩
  · simp [hno] at hold
  · exact not_known_of_fresh hfresh b hb

end Net

end Toontagram
