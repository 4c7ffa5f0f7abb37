import Toontagram.Account.Phones

/-!
# Feeds when accounts change

Accounts sign in and out on the phones while calls are under way, and the closures write the
feed of whoever is signed in when they run. An account that is signed in nowhere is safe from
this (`Phones.feed_signedOut`): nothing is chosen in its name, and its feed changes as if everybody
else had stayed. An account that has used a phone may find there what another one has asked
for (`Phones.feed_inherited`), and this is the only other way into a feed.
-/

namespace Toontagram

open Lib (Along Flight Store run run_inv_along run_inv_past)
open CartoonService (Upload)

namespace CartoonService

variable {auth : Option Uid} {a : Uid} {u : Upload} {k : Call}

/-- A finished upload writes the cartoon, and asks for the fans of who is signed in. -/
theorem mem_uploaded (hk : k ∈ uploaded auth a u) :
    k = ⟨auth, .write (.setData ⟨.cartoon, u.ref⟩ (u.data a)) (.screen .ignore)⟩ ∨
    ∃ b, auth = some b ∧ k = ⟨auth, .getDocuments { collection := .userFan b }
      (.updateMainUserAfterCartoon b u.ref)⟩ := by
  rcases List.mem_cons.mp hk with rfl | hk
  · exact Or.inl rfl
  · cases auth with
    | none => cases hk
    | some b => exact Or.inr ⟨b, rfl, List.mem_singleton.mp hk⟩

theorem auth_uploaded (hk : k ∈ uploaded auth a u) : k.auth = auth := by
  rcases mem_uploaded hk with rfl | ⟨b, -, rfl⟩ <;> rfl

end CartoonService

namespace Phones

variable {P : Type} {v : Uid} {posts : Uid → DocID → Prop} {n₀ n n' : Phones P}

/-- The app in which every call belongs to the account that is signed in now. -/
def current (n : Phones P) : App :=
  n.map Shared.backend fun e => { e.task with call := e.task.call.on (n.state.auth e.phone) }

/-- An answer is that of a call of the account that is signed in now. -/
theorem answer_current {i : Nat} {r : Reply} (hstep : n.answer Errand.exec i r = some n') :
    n.current.step (.answer i r) = some n'.current := by
  have hauth : n'.state.auth = n.state.auth := by
    obtain ⟨pre, e, post, -, -, rfl⟩ := Flight.answer_cases hstep
    rfl
  rw [current, current, hauth]
  refine Flight.answer_map hstep fun e _ => ?_
  refine Prod.ext rfl ?_
  show List.map _ _ = List.map _ (List.map _ (List.map _ _))
  rw [List.map_map, List.map_map]
  refine List.map_congr_left fun k hk => ?_
  have hk' : k.auth = n.state.auth e.phone := Call.auth_exec hk
  show _ = Task.mk _ (k.on (n.state.auth e.phone))
  rw [← hk']
  rfl

/-- New calls are those of the account that is signed in now. -/
theorem current_start {p : P} {ks : List Call} (o : Operation)
    (hks : ∀ k ∈ ks, k.auth = n.state.auth p) :
    (n.start p o ks).current = n.current.issue (ks.map fun k => ⟨o, k⟩) := by
  unfold current start Flight.map Flight.issue
  simp only [List.map_append, List.map_map]
  congr 2
  refine List.map_congr_left fun k hk => ?_
  show Task.mk o (k.on (n.state.auth p)) = _
  rw [← hks k hk]
  rfl

/-! ## An account that is signed in nowhere -/

/-- The upload of `x` is finished on a phone on which `b` is signed in. -/
def Finishes (n : Phones P) (b : Uid) (x : DocID) : PhoneEvent P → Prop
  | .uploaded p _ u => n.state.auth p = some b ∧ u.ref = x
  | _ => False

/-- Somebody else signs in, or nobody, and the uploads are among those that count. -/
def Without (v : Uid) (posts : Uid → DocID → Prop) (n : Phones P) (e : PhoneEvent P) : Prop :=
  (∀ p, e ≠ .signIn p (some v)) ∧ ∀ b x, n.Finishes b x e → posts b x

/-- The account is signed in nowhere, and others have done to its documents what they may. -/
structure Away (v : Uid) (posts : Uid → DocID → Prop) (n₀ n : Phones P) : Prop where
  out : ∀ p, n.state.auth p ≠ some v
  app : App.Away v posts n₀.current n.current

/-- Another account takes over the calls of a phone. -/
theorem Away.signIn [DecidableEq P] (h : Away v posts n₀ n) (p : P) {auth : Option Uid}
    (hauth : auth ≠ some v) :
    Away v posts n₀ { n with state.auth := Function.update n.state.auth p auth } := by
  have hout : ∀ p', Function.update n.state.auth p auth p' ≠ some v := by
    intro p'
    rw [Function.update_apply]
    split
    · exact hauth
    · exact h.out p'
  refine ⟨hout, h.app.chosen, fun t ht => ?_, h.app.kept, h.app.gained⟩
  obtain ⟨e, he, rfl⟩ := List.mem_map.mp ht
  have hold := h.app.flight _ (List.mem_map_of_mem he)
  -- what a call has to respect does not depend on which of the others is signed in
  exact ⟨hout e.phone, hold.2⟩

theorem Away.uploaded (h : Away v posts n₀ n) {p : P} {a : Uid} {u : Upload} (o : Operation)
    (hposts : ∀ b, n.state.auth p = some b → posts b u.ref) :
    Away v posts n₀ (n.start p o (CartoonService.uploaded (n.state.auth p) a u)) := by
  refine ⟨h.out, ?_⟩
  rw [current_start o fun k hk => CartoonService.auth_uploaded hk]
  refine h.app.issue fun t ht => ?_
  obtain ⟨k, hk, rfl⟩ := List.mem_map.mp ht
  refine ⟨(CartoonService.auth_uploaded hk).symm ▸ h.out p, ?_⟩
  rcases CartoonService.mem_uploaded hk with rfl | ⟨b, hb, rfl⟩
  · exact ⟨foreign_of_ne id (by intro u hu; cases hu), trivial⟩
  · refine ⟨rfl, fun hbv => h.out p ?_, hposts b hb⟩
    rw [hb, hbv]

variable [DecidableEq P]

theorem Away.step (h : Away v posts n₀ n) {e : PhoneEvent P} (he : n.Without v posts e)
    (hstep : n.step e = some n') : Away v posts n₀ n' := by
  cases e with
  | signIn p auth =>
    cases hstep
    exact h.signIn p fun hauth => he.1 p (by rw [hauth])
  | act p o =>
    obtain ⟨⟨hauth, hposts, -, -⟩, hstart⟩ := Option.ite_none_right_eq_some.mp hstep
    obtain rfl := Option.some.inj hstart
    refine ⟨h.out, ?_⟩
    rw [current_start o fun k hk => (Operation.auth_calls hk).trans hauth]
    -- the operation is not an upload, so it brings no cartoon into a feed
    refine h.app.start (hauth ▸ h.out p) fun author x hpost => ?_
    rw [hposts] at hpost
    cases hpost
  | upload p =>
    obtain ⟨a, -, rfl⟩ := Option.map_eq_some_iff.mp hstep
    exact ⟨h.out, h.app⟩
  | uploaded p a u =>
    obtain ⟨-, hstart⟩ := Option.ite_none_right_eq_some.mp hstep
    obtain rfl := Option.some.inj hstart
    have hsame : Away v posts n₀ { n with state.uploads := n.state.uploads.erase (p, a) } :=
      ⟨h.out, h.app⟩
    -- the cartoon goes to the fans of whoever is signed in now
    exact hsame.uploaded _ fun b hb => he.2 b u.ref ⟨hb, rfl⟩
  | answer i r =>
    have hauth : n'.state.auth = n.state.auth := by
      obtain ⟨pre, e, post, -, -, rfl⟩ := Flight.answer_cases hstep
      rfl
    exact ⟨hauth ▸ h.out, h.app.answer (answer_current hstep)⟩
  | fetchCartoon cartoonID r =>
    cases hstep
    exact ⟨h.out, h.app.chosen, h.app.flight, h.app.kept, h.app.gained⟩
  | fetchFeedBack p uid now =>
    obtain ⟨-, hfetch⟩ := Option.ite_none_right_eq_some.mp hstep
    obtain rfl := Option.some.inj hfetch
    exact ⟨h.out, h.app.chosen, h.app.flight, h.app.kept, h.app.gained⟩

/-- The upload of `x` is finished in the run, on a phone on which `b` is signed in. -/
def Spreads (n : Phones P) (es : List (PhoneEvent P)) (b : Uid) (x : DocID) : Prop :=
  ∃ es₁ e es₂ m, es = es₁ ++ e :: es₂ ∧ run Phones.step n es₁ = some m ∧ m.Finishes b x e

/-- An account is signed in on no phone, from a moment on at which no call is in flight, while
others sign in and out everywhere. Nothing is chosen in its name, whoever finishes what others
began; its feed loses nothing, and gains only cartoons whose upload is finished on the phone of
somebody it is a fan of. -/
theorem feed_signedOut {es : List (PhoneEvent P)} (hquiet : n.inflight = [])
    (hout : ∀ p, n.state.auth p ≠ some v) (hrun : run Phones.step n es = some n')
    (haway : ∀ p, .signIn p (some v) ∉ es) :
    (∀ ref, Chosen v ref →
      n'.state.backend.store.lookup ref = n.state.backend.store.lookup ref) ∧
    (∀ x, n.state.backend.store.has ⟨.userFeed v, x⟩ = true →
      n'.state.backend.store.has ⟨.userFeed v, x⟩ = true) ∧
    ∀ x, n'.state.backend.store.has ⟨.userFeed v, x⟩ = true →
      n.state.backend.store.has ⟨.userFeed v, x⟩ = true ∨
      ∃ b, n.Spreads es b x ∧ n.state.backend.store.has ⟨.userFan b, v⟩ = true := by
  have hwithout : Along Phones.step (fun m e => m.Without v (n.Spreads es) e) n es := by
    refine Lib.along_of_prefix es fun es₁ e es₂ m hes hm => ⟨fun p he => haway p ?_, ?_⟩
    · rw [hes, he]
      simp
    · intro b x hfinishes
      exact ⟨es₁, e, es₂, m, hes, hm, hfinishes⟩
  have hstart : Away v (n.Spreads es) n n := by
    refine ⟨hout, .refl ?_⟩
    show n.inflight.map _ = []
    rw [hquiet, List.map_nil]
  have hstep : ∀ (m : Phones P) e m', Away v (n.Spreads es) n m → m.Without v (n.Spreads es) e →
      m.step e = some m' → Away v (n.Spreads es) n m' := fun _ _ _ h he hstep => h.step he hstep
  have haway := (run_inv_along hstep es hstart hwithout hrun).app
  exact ⟨haway.chosen, haway.kept, haway.gained⟩

/-- The `i`-th call in flight is answered without error. -/
def answered (i : Nat) : PhoneEvent Unit := .answer i ⟨true, ⟨"id", ⟨0, 0⟩⟩⟩

/-- The author posts a cartoon on the phone, and `b` is signed in when it is finished. -/
def posting (author b : Uid) (x : DocID) : List (PhoneEvent Unit) :=
  [.signIn () (some author), .upload (), .signIn () (some b), .uploaded () author (App.post x),
   answered 0, answered 0, answered 0]

/-- Somebody begins to follow the author. -/
def follows (a : Uid) : List (PhoneEvent Unit) :=
  let follower := User.init (.ofList [("uid", .string a)])
  let author := User.init (.ofList [("uid", .string "author")])
  [.signIn () (some a), .act () (.action (.didTapButton (some a) (some follower) 0 author))]

/-- The reader follows the author and leaves. The author posts again, but somebody else is
signed in when the upload is finished. -/
theorem feed_signedOut_handover :
    ∃ n n', run Phones.step (opened ∅ fun _ => none) (posting "author" "author" "old" ++
        follows "reader" ++ [answered 0, answered 0, answered 0, answered 0, answered 0,
          .signIn () none]) = some n ∧
      run Phones.step n (posting "author" "other" "new") = some n' ∧
      n'.state.backend.store.has ⟨.userFeed "reader", "old"⟩ = true ∧
      n'.state.backend.store.has ⟨.userFeed "reader", "new"⟩ = false := by
  let n := (run Phones.step (opened ∅ fun _ => none) (posting "author" "author" "old" ++
    follows "reader" ++ [answered 0, answered 0, answered 0, answered 0, answered 0,
      .signIn () none])).get (by decide)
  let n' := (run Phones.step n (posting "author" "other" "new")).get (by decide)
  have hrun : run Phones.step n (posting "author" "other" "new") = some n' :=
    (Option.some_get _).symm
  have hquiet : n.inflight = [] := by decide
  have hout : ∀ p, n.state.auth p ≠ some "reader" := by decide
  have haway : ∀ p, .signIn p (some "reader") ∉ posting "author" "other" "new" := by
    intro p hp
    simp [posting, answered] at hp
  obtain ⟨-, hkept, -⟩ := feed_signedOut hquiet hout hrun haway
  exact ⟨n, n', (Option.some_get _).symm, hrun, hkept "old" (by decide), by decide⟩

/-! ## An account that comes to a phone later -/

/-- `v` is signed in on the phone when the events `es₀` of the run have happened, or later. -/
def SignedSince (n : Phones P) (es es₀ : List (PhoneEvent P)) (p : P) (v : Uid) : Prop :=
  ∃ es₁ m, es₀ <+: es₁ ∧ es₁ <+: es ∧ run Phones.step n es₁ = some m ∧ m.state.auth p = some v

/-- `b` posts `x` in the run: uploads it, or is signed in where the upload is finished. -/
def Posts (n : Phones P) (es : List (PhoneEvent P)) (b : Uid) (x : DocID) : Prop :=
  ∃ es₁ p a u m, es₁ ++ [.uploaded p a u] <+: es ∧ run Phones.step n es₁ = some m ∧ u.ref = x ∧
    (a = b ∨ m.state.auth p = some b)

/-- Somebody sets out to follow `b`, on a phone on which `v` is signed in then or later. -/
def Inherits (n : Phones P) (es : List (PhoneEvent P)) (v b : Uid) : Prop :=
  ∃ es₁ p o a, es₁ ++ [.act p o] <+: es ∧ o.asks = some (a, b) ∧ n.SignedSince es es₁ p v

/-- After the events `es₁` of the run, documents and calls respect who is to get what. A call
respects it on behalf of everybody who signs in on the phone after the call was issued. -/
structure Wants (n₀ : Phones P) (es es₁ : List (PhoneEvent P)) (n : Phones P) : Prop where
  store : ∀ ref data, n.state.backend.store.lookup ref = some data →
    Rightful (n₀.Posts es) (n₀.Inherits es) ref data
  flight : ∀ e ∈ n.inflight, ∃ es₀, es₀ <+: es₁ ∧ e.task.call.Entitled (n₀.Posts es)
    (n₀.Inherits es) (n₀.SignedSince es es₀ e.phone)

variable {es es₁ : List (PhoneEvent P)}

theorem Wants.mono (h : Wants n₀ es es₁ n) (e : PhoneEvent P) : Wants n₀ es (es₁ ++ [e]) n := by
  refine ⟨h.store, fun e' he' => ?_⟩
  obtain ⟨es₀, hes₀, hentitled⟩ := h.flight e' he'
  exact ⟨es₀, hes₀.trans (List.prefix_append ..), hentitled⟩

theorem Wants.start (h : Wants n₀ es es₁ n) {p : P} {o : Operation} {ks : List Call}
    (hks : ∀ k ∈ ks, k.Entitled (n₀.Posts es) (n₀.Inherits es) (n₀.SignedSince es es₁ p)) :
    Wants n₀ es es₁ (n.start p o ks) := by
  refine ⟨h.store, fun e he => ?_⟩
  rcases List.mem_append.mp he with he | he
  · exact h.flight e he
  · obtain ⟨k, hk, rfl⟩ := List.mem_map.mp he
    exact ⟨es₁, List.prefix_rfl, hks k hk⟩

theorem Wants.answer (h : Wants n₀ es es₁ n) (hes : es₁ <+: es)
    (hrun : run Phones.step n₀ es₁ = some n) {i : Nat} {r : Reply}
    (hstep : n.answer Errand.exec i r = some n') : Wants n₀ es es₁ n' := by
  obtain ⟨pre, e, post, hin, -, rfl⟩ := Flight.answer_cases hstep
  obtain ⟨es₀, hes₀, he⟩ := h.flight e (by rw [hin]; simp)
  let k := e.task.call.on (n.state.auth e.phone)
  -- whoever is signed in now is one of those on whose behalf the call was issued
  have hauth : ∀ me, k.auth = some me → n₀.SignedSince es es₀ e.phone me :=
    fun me hme => ⟨es₁, n, hes₀, hes, hrun, hme⟩
  have hk : k.Entitled (n₀.Posts es) (n₀.Inherits es) (n₀.SignedSince es es₀ e.phone) := he
  constructor
  · rcases App.answered_cases ⟨e.task.origin, k⟩ r n.state.backend.store with
      ⟨-, hstore⟩ | ⟨w, c, hreq, -, hstore⟩
    · show ∀ ref data, (k.exec r n.state.backend.store).1.lookup ref = some data → _
      rw [hstore]
      exact h.store
    · show ∀ ref data, (k.exec r n.state.backend.store).1.lookup ref = some data → _
      rw [hstore]
      unfold Call.Entitled at hk
      rw [hreq] at hk
      exact Store.all_apply h.store hk.1
  · intro e' he'
    rcases Flight.mem_of_answered (k := e) he' with he' | he'
    · exact h.flight e' (hin ▸ he')
    · obtain ⟨t, ht, rfl⟩ := List.mem_map.mp he'
      obtain ⟨k', hk', rfl⟩ := List.mem_map.mp ht
      exact ⟨es₀, hes₀, hk.exec hauth h.store hk'⟩

theorem Wants.step (h : Wants n₀ es es₁ n) {e : PhoneEvent P} (hes : es₁ ++ [e] <+: es)
    (hrun : run Phones.step n₀ es₁ = some n) (hstep : n.step e = some n') :
    Wants n₀ es (es₁ ++ [e]) n' := by
  refine Wants.mono ?_ e
  cases e with
  | signIn p auth =>
    cases hstep
    exact ⟨h.store, h.flight⟩
  | act p o =>
    obtain ⟨⟨hauth, hposts, -, -⟩, hstart⟩ := Option.ite_none_right_eq_some.mp hstep
    obtain rfl := Option.some.inj hstart
    refine h.start fun k hk => Operation.entitled hk ?_ fun a b hasks => ?_
    · intro author x hpost
      rw [hposts] at hpost
      cases hpost
    -- the loop of a follow runs for the account that is signed in when the closure runs
    · have hinherits : ∀ me, n₀.SignedSince es es₁ p me → n₀.Inherits es me b :=
        fun me hme => ⟨es₁, p, o, a, hes, hasks, hme⟩
      refine ⟨hinherits a ⟨es₁, n, List.prefix_rfl, ?_, hrun, ?_⟩, hinherits⟩
      · exact (List.prefix_append ..).trans hes
      · exact hauth.symm.trans (Operation.auth_of_asks hasks)
  | upload p =>
    obtain ⟨a, -, rfl⟩ := Option.map_eq_some_iff.mp hstep
    exact ⟨h.store, h.flight⟩
  | uploaded p a u =>
    obtain ⟨-, hstart⟩ := Option.ite_none_right_eq_some.mp hstep
    obtain rfl := Option.some.inj hstart
    have hsame : Wants n₀ es es₁ { n with state.uploads := n.state.uploads.erase (p, a) } :=
      ⟨h.store, h.flight⟩
    refine hsame.start fun k hk => ?_
    rcases CartoonService.mem_uploaded hk with rfl | ⟨b, hb, rfl⟩
    -- the document names the account that began the upload
    · refine ⟨fun author hauthor => ?_, trivial⟩
      have ha : some (Value.string a) = some (.string author) := hauthor
      obtain rfl := Value.string.inj (Option.some.inj ha)
      exact ⟨es₁, p, a, u, n, hes, hrun, rfl, Or.inl rfl⟩
    -- the feeds are those of the fans of the account that is signed in
    · exact ⟨rfl, es₁, p, a, u, n, hes, hrun, rfl, Or.inr hb⟩
  | answer i r => exact h.answer ((List.prefix_append ..).trans hes) hrun hstep
  | fetchCartoon cartoonID r =>
    cases hstep
    exact ⟨h.store, h.flight⟩
  | fetchFeedBack p uid now =>
    obtain ⟨-, hfetch⟩ := Option.ite_none_right_eq_some.mp hstep
    obtain rfl := Option.some.inj hfetch
    exact ⟨h.store, h.flight⟩

/-- What is in a feed, when accounts sign in and out while calls are under way: what the owner
posts, or what somebody posts whom an account has set out to follow on a phone on which the
owner of the feed was signed in, then or later. -/
theorem feed_inherited {auth : P → Option Uid}
    (hrun : run Phones.step (opened ∅ auth) es = some n) {x : DocID}
    (hfeed : n.state.backend.store.has ⟨.userFeed v, x⟩ = true) :
    ∃ b, (opened ∅ auth).Posts es b x ∧ (v = b ∨ (opened ∅ auth).Inherits es v b) := by
  have hstart : Wants (opened ∅ auth) es [] (opened ∅ auth) :=
    ⟨fun _ _ hdata => (nomatch hdata), fun _ he => (nomatch he)⟩
  have hwants : Wants (opened ∅ auth) es es n :=
    run_inv_past hstart (fun _ _ _ _ hes hrun h hstep => h.step hes hrun hstep) hrun
  obtain ⟨data, hdata⟩ := Option.isSome_iff_exists.mp hfeed
  exact hwants.store _ data hdata

/-- The author posts a cartoon. The first account begins to follow the author, the second one
signs in before the calls are answered, and gets the cartoon. -/
theorem feed_inherited_takeover :
    let es := posting "author" "author" "c" ++ follows "first" ++
      [.signIn () (some "second"), answered 0, answered 0, answered 0, answered 0, answered 0]
    ∃ b, (opened ∅ fun _ => none).Posts es b "c" ∧
      ("second" = b ∨ (opened ∅ fun _ => none).Inherits es "second" b) := by
  intro es
  have hrun : run Phones.step (opened ∅ fun _ => none) es =
      some ((run Phones.step (opened ∅ fun _ => none) es).get (by decide)) :=
    (Option.some_get _).symm
  exact feed_inherited hrun (by decide)

end Phones

end Toontagram
