import Mathlib.Data.List.Basic
import Toontagram.Lib.Run

/-!
# Writes through an ordered queue

One client whose writes reach the server and are acknowledged in the order it
issued them. A write goes through two stages: it is `sent` until the server
has applied it, then `applied` until its acknowledgement reaches the client;
the callback that runs on the acknowledgement may send further writes, which
join the end of the queue.

`Mirror` watches two places of the server that a client keeps equal by writing
the first and, from the acknowledgement, the second. `Mirror.first` and
`Mirror.second` read the places; `Mirror.outcomeFirst` and
`Mirror.outcomeSecond` are the values they will hold once the queue is empty,
and the theorems say that applying and acknowledging never change them:

- `outcomeFirst_apply`, `outcomeSecond_apply`, `outcomeFirst_acknowledge`,
  `outcomeSecond_acknowledge`.

`applyAt` and `acknowledgeAt` are the queue without its order. A write that
overtakes only writes of other places still changes no outcome
(`outcomeSecond_applyAt`, `outcomeSecond_acknowledgeAt`).

`Echo` watches a value that the client keeps for itself and that the callbacks assign:
`Echo.pending` are the assignments still to come, in their order.

The one that carries the argument is `outcomeSecond_acknowledge`: the second
write joins the queue behind every second write already sent and before every
second write still to be sent, so the order of the second writes is the order
of the first ones.
-/

namespace Toontagram.Lib

/-- A server state and one client's queue of writes. -/
structure Outbox (σ κ : Type) where
  state : σ
  sent : List κ
  applied : List κ

namespace Outbox

variable {σ κ ω : Type}

/-- Send writes. -/
def issue (q : Outbox σ κ) (ks : List κ) : Outbox σ κ := { q with sent := q.sent ++ ks }

/-- The server applies the oldest write it has not applied. -/
def applyHead (effect : κ → σ → σ) (q : Outbox σ κ) : Option (Outbox σ κ) :=
  match q.sent with
  | [] => none
  | k :: sent => some ⟨effect k q.state, sent, q.applied ++ [k]⟩

/-- The oldest applied write is acknowledged and its callback runs. -/
def acknowledgeHead (follow : κ → ω → List κ) (q : Outbox σ κ) (o : ω) :
    Option (Outbox σ κ) :=
  match q.applied with
  | [] => none
  | k :: applied => some ⟨q.state, q.sent ++ follow k o, applied⟩

/-- The server applies the `i`-th write it has not applied. -/
def applyAt (effect : κ → σ → σ) (q : Outbox σ κ) (i : Nat) : Option (Outbox σ κ) :=
  (q.sent[i]?).map fun k => ⟨effect k q.state, q.sent.eraseIdx i, q.applied ++ [k]⟩

/-- The `i`-th applied write is acknowledged and its callback runs. -/
def acknowledgeAt (follow : κ → ω → List κ) (q : Outbox σ κ) (i : Nat) (o : ω) :
    Option (Outbox σ κ) :=
  (q.applied[i]?).map fun k => ⟨q.state, q.sent ++ follow k o, q.applied.eraseIdx i⟩

/-- A list around its `i`-th element. -/
private theorem take_cons_drop {ks : List κ} {i : Nat} {k : κ} (h : ks[i]? = some k) :
    ks = ks.take i ++ k :: ks.drop (i + 1) := by
  obtain ⟨hi, rfl⟩ := List.getElem?_eq_some_iff.mp h
  rw [List.getElem_cons_drop, List.take_append_drop]

/-- What `applyAt` can do. -/
theorem applyAt_cases {effect : κ → σ → σ} {q q' : Outbox σ κ} {i : Nat}
    (h : q.applyAt effect i = some q') :
    ∃ k post, q.sent[i]? = some k ∧ q.sent = q.sent.take i ++ k :: post ∧
      q' = ⟨effect k q.state, q.sent.take i ++ post, q.applied ++ [k]⟩ := by
  obtain ⟨k, hk, rfl⟩ := Option.map_eq_some_iff.mp h
  exact ⟨k, _, hk, take_cons_drop hk, by rw [List.eraseIdx_eq_take_drop_succ]⟩

/-- What `acknowledgeAt` can do. -/
theorem acknowledgeAt_cases {follow : κ → ω → List κ} {q q' : Outbox σ κ} {i : Nat} {o : ω}
    (h : q.acknowledgeAt follow i o = some q') :
    ∃ k post, q.applied[i]? = some k ∧ q.applied = q.applied.take i ++ k :: post ∧
      q' = ⟨q.state, q.sent ++ follow k o, q.applied.take i ++ post⟩ := by
  obtain ⟨k, hk, rfl⟩ := Option.map_eq_some_iff.mp h
  exact ⟨k, _, hk, take_cons_drop hk, by rw [List.eraseIdx_eq_take_drop_succ]⟩

/-- No write is unapplied or unacknowledged. -/
def Idle (q : Outbox σ κ) : Prop := q.sent = [] ∧ q.applied = []

instance (q : Outbox σ κ) : Decidable q.Idle :=
  decidable_of_iff (q.sent.isEmpty ∧ q.applied.isEmpty) (by simp [Idle])

end Outbox

/-- The value left by a sequence of writes to a place that holds `v`. -/
def landed {α : Type} (v : α) (writes : List α) : α := writes.getLast?.getD v

section landed

variable {α : Type}

@[simp] theorem landed_nil (v : α) : landed v [] = v := rfl

theorem landed_cons (v w : α) (l : List α) : landed v (w :: l) = landed w l := by
  rw [landed, landed, List.getLast?_cons]
  rfl

theorem landed_append (v : α) (l m : List α) : landed v (l ++ m) = landed (landed v l) m := by
  induction l generalizing v with
  | nil => rfl
  | cons w l ih => rw [List.cons_append, landed_cons, ih, landed_cons]

/-- A single optional write before the others. -/
theorem landed_toList_append (v : α) (w : Option α) (l : List α) :
    landed v (w.toList ++ l) = landed (w.getD v) l := by
  cases w with
  | none => rfl
  | some w => exact landed_cons v w l

/-- Where something is written, it does not matter what was there. -/
theorem landed_of_ne_nil {l : List α} (h : l ≠ []) (v w : α) : landed v l = landed w l := by
  cases l with
  | nil => exact absurd rfl h
  | cons x l => rw [landed_cons, landed_cons]

/-- A value that each event overwrites or keeps is in the end what the last
event that overwrites it leaves. `P` is an invariant the events keep. -/
theorem run_landed {σ ε : Type} {step : σ → ε → Option σ} (P : σ → Prop) (value : σ → α)
    (writes : ε → Option α)
    (hstep : ∀ s e s', P s → step s e = some s' →
      P s' ∧ value s' = landed (value s) (writes e).toList) :
    ∀ (es : List ε) {s t : σ}, P s → run step s es = some t →
      value t = landed (value s) (es.filterMap writes)
  | [], s, t, _, h => by
    have hst : s = t := by simpa [run] using h
    rw [hst]
    rfl
  | e :: es, s, t, hs, h => by
    obtain ⟨s', hs', hrest⟩ := run_cons h
    obtain ⟨hP, hvalue⟩ := hstep s e s' hs hs'
    have hwrites : (e :: es).filterMap writes = (writes e).toList ++ es.filterMap writes := by
      cases he : writes e with
      | none => rw [List.filterMap_cons_none he]; rfl
      | some v => rw [List.filterMap_cons_some he]; rfl
    rw [run_landed P value writes hstep es hP hrest, hvalue, hwrites, landed_append]

end landed

/-- Two places kept equal by a write and a follow-up write. `later k` is what
the callback of `k` will write to the second place. -/
structure Mirror {σ κ ω : Type} (effect : κ → σ → σ) (follow : κ → ω → List κ) (α : Type) where
  first : σ → α
  second : σ → α
  putFirst : κ → Option α
  putSecond : κ → Option α
  later : κ → List α
  first_effect : ∀ k s, first (effect k s) = (putFirst k).getD (first s)
  second_effect : ∀ k s, second (effect k s) = (putSecond k).getD (second s)
  follow_first : ∀ k o, (follow k o).filterMap putFirst = []
  follow_second : ∀ k o, (follow k o).filterMap putSecond = later k
  follow_later : ∀ k o, (follow k o).flatMap later = []

namespace Mirror

variable {σ κ ω α : Type} {effect : κ → σ → σ} {follow : κ → ω → List κ}
  (m : Mirror effect follow α)

/-- The value the first place will hold when everything sent is applied. -/
def outcomeFirst (q : Outbox σ κ) : α := landed (m.first q.state) (q.sent.filterMap m.putFirst)

/-- The value the second place will hold when everything sent is applied and
acknowledged and what follows is applied. -/
def outcomeSecond (q : Outbox σ κ) : α :=
  landed (m.second q.state)
    (q.sent.filterMap m.putSecond ++ (q.applied ++ q.sent).flatMap m.later)

theorem outcomeFirst_idle {q : Outbox σ κ} (h : q.Idle) : m.outcomeFirst q = m.first q.state := by
  rw [outcomeFirst, h.1]
  rfl

theorem outcomeSecond_idle {q : Outbox σ κ} (h : q.Idle) :
    m.outcomeSecond q = m.second q.state := by
  rw [outcomeSecond, h.1, h.2]
  rfl

/-- `filterMap` over a list that starts with `k`. -/
private theorem filterMap_cons_toList {β : Type} (f : κ → Option β) (k : κ) (ks : List κ) :
    (k :: ks).filterMap f = (f k).toList ++ ks.filterMap f := by
  cases h : f k with
  | none => rw [List.filterMap_cons_none h]; rfl
  | some b => rw [List.filterMap_cons_some h]; rfl

theorem outcomeFirst_apply {q q' : Outbox σ κ} (h : q.applyHead effect = some q') :
    m.outcomeFirst q' = m.outcomeFirst q := by
  obtain ⟨s, sent, applied⟩ := q
  cases sent with
  | nil => cases h
  | cons k sent =>
    cases h
    simp only [outcomeFirst]
    rw [filterMap_cons_toList, landed_toList_append, m.first_effect]

theorem outcomeSecond_apply {q q' : Outbox σ κ} (h : q.applyHead effect = some q') :
    m.outcomeSecond q' = m.outcomeSecond q := by
  obtain ⟨s, sent, applied⟩ := q
  cases sent with
  | nil => cases h
  | cons k sent =>
    cases h
    simp only [outcomeSecond]
    rw [filterMap_cons_toList, List.append_assoc (Option.toList _), landed_toList_append,
      m.second_effect, List.append_assoc applied, List.singleton_append]

/-- `k` overtakes no write of `ks` to the second place, nor one whose callback
will write there before the callback of `k` does. -/
def Passes (k : κ) (ks : List κ) : Prop :=
  (m.putSecond k = none ∨ ks.filterMap m.putSecond = []) ∧
    (m.later k = [] ∨ ks.flatMap m.later = [])

instance [DecidableEq α] (k : κ) (ks : List κ) : Decidable (m.Passes k ks) :=
  inferInstanceAs (Decidable ((_ ∨ _) ∧ (_ ∨ _)))

/-- A write that overtakes nothing that matters is applied. -/
theorem outcomeSecond_applyAt {q q' : Outbox σ κ} {i : Nat} (h : q.applyAt effect i = some q')
    (hpass : ∀ k, q.sent[i]? = some k → m.Passes k (q.sent.take i)) :
    m.outcomeSecond q' = m.outcomeSecond q := by
  obtain ⟨k, post, hk, hsent, rfl⟩ := Outbox.applyAt_cases h
  obtain ⟨hput, hlater⟩ := hpass k hk
  generalize q.sent.take i = pre at hsent hput hlater ⊢
  simp only [outcomeSecond]
  rw [hsent, m.second_effect]
  have hfuture : (q.applied ++ [k] ++ (pre ++ post)).flatMap m.later =
      (q.applied ++ (pre ++ k :: post)).flatMap m.later := by
    simp only [List.flatMap_append, List.flatMap_cons, List.flatMap_nil, List.append_nil]
    rcases hlater with hlater | hlater <;> simp [hlater]
  rw [hfuture, List.filterMap_append, List.filterMap_append, filterMap_cons_toList]
  rcases hput with hput | hput
  · rw [hput]
    rfl
  · rw [hput, List.nil_append, List.nil_append, List.append_assoc (Option.toList _),
      landed_toList_append]

theorem outcomeFirst_acknowledge {q q' : Outbox σ κ} {o : ω}
    (h : q.acknowledgeHead follow o = some q') : m.outcomeFirst q' = m.outcomeFirst q := by
  obtain ⟨s, sent, applied⟩ := q
  cases applied with
  | nil => cases h
  | cons k applied =>
    cases h
    simp only [outcomeFirst]
    rw [List.filterMap_append, m.follow_first, List.append_nil]

/-- The second write of `k` joins the queue exactly where it was expected. -/
theorem outcomeSecond_acknowledge {q q' : Outbox σ κ} {o : ω}
    (h : q.acknowledgeHead follow o = some q') : m.outcomeSecond q' = m.outcomeSecond q := by
  obtain ⟨s, sent, applied⟩ := q
  cases applied with
  | nil => cases h
  | cons k applied =>
    cases h
    simp only [outcomeSecond]
    congr 1
    have hfollow : (applied ++ (sent ++ follow k o)).flatMap m.later =
        (applied ++ sent).flatMap m.later := by
      rw [← List.append_assoc, List.flatMap_append, m.follow_later, List.append_nil]
    rw [List.filterMap_append, m.follow_second, hfollow, List.cons_append, List.flatMap_cons,
      List.append_assoc]

/-- An acknowledgement that overtakes none whose callback matters. -/
theorem outcomeSecond_acknowledgeAt {q q' : Outbox σ κ} {i : Nat} {o : ω}
    (h : q.acknowledgeAt follow i o = some q')
    (hpass : ∀ k, q.applied[i]? = some k →
      m.later k = [] ∨ (q.applied.take i).flatMap m.later = []) :
    m.outcomeSecond q' = m.outcomeSecond q := by
  obtain ⟨k, post, hk, happlied, rfl⟩ := Outbox.acknowledgeAt_cases h
  have hlater := hpass k hk
  generalize q.applied.take i = pre at happlied hlater ⊢
  simp only [outcomeSecond]
  congr 1
  rw [happlied, List.filterMap_append, m.follow_second, List.append_assoc]
  congr 1
  simp only [List.flatMap_append, List.flatMap_cons, m.follow_later, List.append_nil,
    List.append_assoc]
  rcases hlater with hlater | hlater <;> simp [hlater]

theorem outcomeFirst_issue (q : Outbox σ κ) (ks : List κ) :
    m.outcomeFirst (q.issue ks) = landed (m.outcomeFirst q) (ks.filterMap m.putFirst) := by
  simp only [outcomeFirst, Outbox.issue]
  rw [List.filterMap_append, landed_append]

/-- Calls that write the second place only through their callbacks extend its
future by what these callbacks write. -/
theorem outcomeSecond_issue (q : Outbox σ κ) {ks : List κ} (h : ks.filterMap m.putSecond = []) :
    m.outcomeSecond (q.issue ks) = landed (m.outcomeSecond q) (ks.flatMap m.later) := by
  simp only [outcomeSecond, Outbox.issue]
  rw [List.filterMap_append, h, List.append_nil, ← List.append_assoc, List.flatMap_append,
    ← List.append_assoc, landed_append]

end Mirror

/-- A value on the client that callbacks assign. `tells k` is what the callback of `k` assigns,
`later k` what the callbacks of the writes it sends will. -/
structure Echo {κ ω : Type} (follow : κ → ω → List κ) (α : Type) where
  tells : κ → Option α
  later : κ → List α
  follow_tells : ∀ k o, (follow k o).filterMap tells = later k
  follow_later : ∀ k o, (follow k o).flatMap later = []

namespace Echo

variable {σ κ ω α : Type} {effect : κ → σ → σ} {follow : κ → ω → List κ} (e : Echo follow α)

/-- What the callbacks still to come will assign, in order. -/
def pending (q : Outbox σ κ) : List α :=
  (q.applied ++ q.sent).filterMap e.tells ++ (q.applied ++ q.sent).flatMap e.later

theorem pending_idle {q : Outbox σ κ} (h : q.Idle) : e.pending q = [] := by
  rw [pending, h.1, h.2]
  rfl

theorem pending_apply {q q' : Outbox σ κ} (h : q.applyHead effect = some q') :
    e.pending q' = e.pending q := by
  obtain ⟨s, sent, applied⟩ := q
  cases sent with
  | nil => cases h
  | cons k sent =>
    cases h
    simp only [pending]
    rw [List.append_assoc applied, List.singleton_append]

/-- What the callback of the oldest write assigns is the first of what was pending; what its
follow-ups will assign stays in its place. -/
theorem pending_acknowledge {q q' : Outbox σ κ} {k : κ} {o : ω} (hk : q.applied.head? = some k)
    (h : q.acknowledgeHead follow o = some q') :
    e.pending q = (e.tells k).toList ++ e.pending q' := by
  obtain ⟨s, sent, applied⟩ := q
  cases applied with
  | nil => cases h
  | cons k' applied =>
    cases h
    obtain rfl : k' = k := Option.some.inj hk
    simp only [pending]
    rw [List.cons_append, ← List.append_assoc applied]
    generalize applied ++ sent = rest
    rw [Mirror.filterMap_cons_toList, List.flatMap_cons, List.filterMap_append,
      List.flatMap_append, e.follow_tells, e.follow_later]
    simp only [List.append_assoc, List.append_nil]

/-- Writes whose own callbacks assign nothing. -/
theorem pending_issue (q : Outbox σ κ) {ks : List κ} (h : ks.filterMap e.tells = []) :
    e.pending (q.issue ks) = e.pending q ++ ks.flatMap e.later := by
  simp only [pending, Outbox.issue]
  rw [← List.append_assoc q.applied, List.filterMap_append, List.flatMap_append, h,
    List.append_nil, List.append_assoc]

end Echo

end Toontagram.Lib
