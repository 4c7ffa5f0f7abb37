import Mathlib.Data.List.MinMax
import Mathlib.Tactic.Abel
import Toontagram.Api.Finish
import Toontagram.Lib.Clients
import Toontagram.Mirror.Order

/-!
# Mirrored documents on many devices

`Mirror/Order.lean` is about one device on its own. Here every account has a
device, all of them work on one Firestore, and their events come in any order.
What a device writes to the documents of pairs are documents of its own account
(`Call.OwnedBy`), so what is known of one device carries over.

`settles` is the whole of it: once no more calls are made the devices come to
rest, and then both documents of every pair of every account say what the account's
last call for the pair has left.
-/

namespace Toontagram

open Relation (CutExpand)
open Lib (Clients DocWrite Drain Outbox Store landed landed_nil run)

/-! ## A device and its account -/

theorem Pair.first_inj {me you : Uid} {p q : Pair} (h : q.first me = p.first you) : me = you := by
  cases p <;> cases q <;> simp_all [first]

theorem Pair.second_inj {me you : Uid} {p q : Pair} (h : q.second me = p.second you) :
    me = you := by
  cases p <;> cases q <;> simp_all [second]

theorem Pair.first_ne_second_of {me you : Uid} {p q : Pair} : q.first me ≠ p.second you := by
  cases p <;> cases q <;> simp [first, second]

/-- Of the documents of pairs the call touches those of `me` only, now and by its
closure. -/
def Call.OwnedBy (me : Uid) (k : Call) : Prop :=
  ∀ you, you ≠ me → ∀ p : Pair, k.leavesAt (p.first you) = none ∧
    k.leavesAt (p.second you) = none ∧ k.later (p.second you) = []

theorem Call.unpaired.ownedBy {k : Call} (h : k.unpaired) (me : Uid) : k.OwnedBy me :=
  fun you _ p => ⟨(h.1 you p).1, (h.1 you p).2, h.2 _⟩

/-- The services write pairs of the signed-in account. -/
theorem ServiceCall.ownedBy (me : Uid) (c : ServiceCall) : ∀ k ∈ c.calls me, k.OwnedBy me := by
  intro k hk
  rcases c.calls_cases me with ⟨hcalls, -⟩ | ⟨q, b, rest, completion, hcalls, hrest, hlater, -⟩
  · rw [hcalls] at hk
    cases hk
  · rw [hcalls, List.mem_append, List.mem_singleton] at hk
    rcases hk with hk | rfl
    · exact (hrest k hk).2.ownedBy me
    -- the first write is to a pair of `me`, and its closure writes the other half of the pair
    · intro you hyou p
      have hfirst : q.first me ≠ p.first you := fun h => hyou (Pair.first_inj h).symm
      have hsecond : q.second me ≠ p.second you := fun h => hyou (Pair.second_inj h).symm
      have hcross : q.first me ≠ p.second you := Pair.first_ne_second_of
      refine ⟨?_, ?_, ?_⟩
      · simp [Call.leavesAt, DocWrite.leavesAt, hfirst]
      · simp [Call.leavesAt, DocWrite.leavesAt, hcross]
      · show completion.later (p.second you) = []
        rw [hlater, if_neg hsecond]

/-- The closure of a call keeps to the same account. -/
theorem Call.OwnedBy.follow {me : Uid} {k : Call} (h : k.OwnedBy me) (m : Moment) :
    ∀ k' ∈ k.follow m, k'.OwnedBy me := by
  intro k' hk'
  rcases k.follow_cases m with ⟨b, ref, c, hfollow, hfirst, hlater⟩ | ⟨hunpaired, -⟩
  · rw [hfollow, List.mem_singleton] at hk'
    subst hk'
    intro you hyou p
    have hsecond : ref ≠ p.second you := by
      intro href
      have hown := (h you hyou p).2.2
      rw [hlater, if_pos href] at hown
      cases hown
    refine ⟨?_, ?_, rfl⟩
    · simp [Call.leavesAt, DocWrite.leavesAt, hfirst]
    · simp [Call.leavesAt, DocWrite.leavesAt, hsecond]
  · exact (hunpaired k' hk').ownedBy me

/-- A device that keeps to the pairs of its account. -/
structure Device.Own (me : Uid) (d : Device) : Prop extends Device.Reading d where
  sent : ∀ k ∈ d.queue.sent, k.OwnedBy me
  applied : ∀ k ∈ d.queue.applied, k.OwnedBy me

/-- An event on a device keeps to the pairs of its account, and changes no document of
a pair of another account. -/
theorem Device.Own.step {me : Uid} {d d' : Device} {e : DeviceEvent} (h : d.Own me)
    (hstep : d.step me e = some d') : d'.Own me ∧ ∀ you, you ≠ me → ∀ p : Pair,
      d'.queue.state.has (p.first you) = d.queue.state.has (p.first you) ∧
      d'.queue.state.has (p.second you) = d.queue.state.has (p.second you) := by
  have hreading := (Device.step_outcome h.toReading hstep (.star "")).1
  have hissue : ∀ ks : List Call, (∀ k ∈ ks, k.OwnedBy me) →
      ∀ k ∈ d.queue.sent ++ ks.filter Call.isWrite, k.OwnedBy me := by
    intro ks hks k hk
    rcases List.mem_append.mp hk with hk | hk
    · exact h.sent k hk
    · exact hks k (List.mem_of_mem_filter hk)
  cases e with
  | call c =>
    obtain rfl := Option.some.inj hstep
    exact ⟨⟨hreading, hissue _ (c.ownedBy me), h.applied⟩, fun you _ p => ⟨rfl, rfl⟩⟩
  | apply =>
    obtain ⟨queue, hqueue, rfl⟩ := Option.map_eq_some_iff.mp hstep
    unfold Outbox.applyHead at hqueue
    split at hqueue
    next => cases hqueue
    next k sent hsent =>
      obtain rfl := Option.some.inj hqueue
      have hk : k.OwnedBy me := h.sent k (by rw [hsent]; exact List.mem_cons_self ..)
      refine ⟨⟨hreading, fun k' hk' => ?_, fun k' hk' => ?_⟩, fun you hyou p => ?_⟩
      -- the call moves from the sent ones to the applied ones, and its write is done
      · exact h.sent k' (by rw [hsent]; exact List.mem_cons_of_mem k hk')
      · rcases List.mem_append.mp hk' with hk' | hk'
        · exact h.applied k' hk'
        · exact List.mem_singleton.mp hk' ▸ hk
      · obtain ⟨hfirst, hsecond, -⟩ := hk you hyou p
        simp only [Call.has_effect, hfirst, hsecond]
        exact ⟨rfl, rfl⟩
  | acknowledge m =>
    obtain ⟨⟨d'', effects⟩, hd, rfl⟩ := Option.map_eq_some_iff.mp hstep
    unfold Device.acknowledge at hd
    split at hd
    next => cases hd
    next k applied happlied =>
      obtain ⟨queue, hqueue, he⟩ := Option.map_eq_some_iff.mp hd
      cases he
      simp only [Outbox.acknowledgeHead, happlied] at hqueue
      obtain rfl := Option.some.inj hqueue
      have hk : k.OwnedBy me := h.applied k (by rw [happlied]; exact List.mem_cons_self ..)
      refine ⟨⟨hreading, fun k' hk' => ?_, fun k' hk' => ?_⟩, fun you _ p => ⟨rfl, rfl⟩⟩
      -- its closure appends to the queue what keeps to the same account
      · rcases List.mem_append.mp hk' with hk' | hk'
        · exact h.sent k' hk'
        · exact hk.follow m k' hk'
      · exact h.applied k' (by rw [happlied]; exact List.mem_cons_of_mem k hk')
  | serve i r =>
    obtain ⟨k, hk, rfl⟩ := Option.map_eq_some_iff.mp hstep
    exact ⟨⟨hreading, h.sent, h.applied⟩, fun you _ p => ⟨rfl, rfl⟩⟩
  | deliver i =>
    obtain ⟨⟨d'', effects⟩, hd, rfl⟩ := Option.map_eq_some_iff.mp hstep
    obtain ⟨x, hx, he⟩ := Option.map_eq_some_iff.mp hd
    cases he
    have hx' := h.served x (List.mem_of_getElem? hx)
    exact ⟨⟨hreading, hissue _ fun k hk => (hx' k hk).ownedBy me, h.applied⟩,
      fun you _ p => ⟨rfl, rfl⟩⟩

/-! ## The devices together -/

/-- What a device keeps besides the server: a `Device` without the store. -/
structure Handset where
  sent : List Call
  applied : List Call
  reads : List Call
  served : List Reaction

/-- A device that has issued nothing yet. -/
def Handset.fresh : Handset := ⟨[], [], [], []⟩

/-- The device, working on the store. -/
def Handset.on (p : Handset) (store : Firestore) : Device :=
  ⟨⟨store, p.sent, p.applied⟩, p.reads, p.served⟩

def Device.phone (d : Device) : Handset := ⟨d.queue.sent, d.queue.applied, d.reads, d.served⟩

/-- One event on the device of `me`. -/
def Handset.step (me : Uid) (s : Firestore × Handset) (e : DeviceEvent) :
    Option (Firestore × Handset) :=
  ((s.2.on s.1).step me e).map fun d => (d.queue.state, d.phone)

theorem Handset.step_device {me : Uid} {s s' : Firestore × Handset} {e : DeviceEvent}
    (h : Handset.step me s e = some s') : (s.2.on s.1).step me e = some (s'.2.on s'.1) := by
  obtain ⟨d, hd, rfl⟩ := Option.map_eq_some_iff.mp h
  exact hd

/-- Firestore and the device of every account. -/
abbrev Fleet := Clients Uid Firestore Handset

namespace Fleet

/-- The device of an account. -/
def device (f : Fleet) (me : Uid) : Device := (f.locals me).on f.state

/-- An event on the device of an account. -/
def step (f : Fleet) (e : Uid × DeviceEvent) : Option Fleet := Clients.step Handset.step f e

/-- A store, and devices that have issued nothing yet. -/
def opened (store : Firestore) : Fleet := ⟨store, fun _ => .fresh⟩

end Fleet

/-- The device keeps to its account, whatever the store holds. -/
def Handset.Own (me : Uid) (p : Handset) : Prop := ∀ store, (p.on store).Own me

theorem Handset.own_fresh (me : Uid) : Handset.fresh.Own me := fun store =>
  ⟨Device.reading_opened store, fun _ hk => absurd hk List.not_mem_nil,
    fun _ hk => absurd hk List.not_mem_nil⟩

/-- Whether a device keeps to its account does not depend on the store. -/
theorem Handset.own_of_device {me : Uid} {p : Handset} {store : Firestore}
    (h : (p.on store).Own me) : p.Own me :=
  fun _ => ⟨⟨h.reads, h.served⟩, h.sent, h.applied⟩

theorem Handset.own_step {me : Uid} {s s' : Firestore × Handset} {e : DeviceEvent}
    (hown : s.2.Own me) (h : Handset.step me s e = some s') : s'.2.Own me :=
  own_of_device ((hown s.1).step (step_device h)).1

/-- What the events of one account leave of the pairs of another. -/
theorem Handset.has_other {you me : Uid} {s s' : Firestore × Handset} {e : DeviceEvent}
    (hne : me ≠ you) (hown : s.2.Own me) (h : Handset.step me s e = some s') (p : Pair) :
    s'.1.has (p.first you) = s.1.has (p.first you) ∧
      s'.1.has (p.second you) = s.1.has (p.second you) :=
  ((hown s.1).step (step_device h)).2 you hne.symm p

theorem Pair.outcomeFirst_other {you me : Uid} {s s' : Firestore × Handset} {e : DeviceEvent}
    (p : Pair) (hne : me ≠ you) (hown : s.2.Own me) (h : Handset.step me s e = some s')
    (l : Handset) : (p.mirror you).outcomeFirst (l.on s'.1).queue =
      (p.mirror you).outcomeFirst (l.on s.1).queue :=
  congrArg (landed · _) (Handset.has_other hne hown h p).1

theorem Pair.outcomeSecond_other {you me : Uid} {s s' : Firestore × Handset} {e : DeviceEvent}
    (p : Pair) (hne : me ≠ you) (hown : s.2.Own me) (h : Handset.step me s e = some s')
    (l : Handset) : (p.mirror you).outcomeSecond (l.on s'.1).queue =
      (p.mirror you).outcomeSecond (l.on s.1).queue :=
  congrArg (landed · _) (Handset.has_other hne hown h p).2

/-- The outcome of the first document of a pair. -/
def Pair.watchedFirst (p : Pair) : Clients.Watched Handset.step Bool where
  inv := Handset.Own
  value me s := (p.mirror me).outcomeFirst (s.2.on s.1).queue
  writes := DeviceEvent.leaves p
  inv_own := Handset.own_step
  value_own hown h := (Device.step_outcome (hown _).toReading (Handset.step_device h) p).2.1
  value_other := p.outcomeFirst_other

/-- The outcome of the second document of a pair. -/
def Pair.watchedSecond (p : Pair) : Clients.Watched Handset.step Bool where
  inv := Handset.Own
  value me s := (p.mirror me).outcomeSecond (s.2.on s.1).queue
  writes := DeviceEvent.leaves p
  inv_own := Handset.own_step
  value_own hown h := (Device.step_outcome (hown _).toReading (Handset.step_device h) p).2.2
  value_other := p.outcomeSecond_other

namespace Fleet

/-- What an event leaves of a pair of the account `me`. -/
def leaves (me : Uid) (p : Pair) (e : Uid × DeviceEvent) : Option Bool :=
  if e.1 = me then e.2.leaves p else none

/-- A device whose callbacks have all run: both documents of every pair of its account
hold what the account's last call has left, whatever the other devices are doing. -/
theorem mirrored {store : Firestore} {es : List (Uid × DeviceEvent)} {f : Fleet} {me : Uid}
    (hagree : ∀ p : Pair, store.has (p.first me) = store.has (p.second me))
    (hrun : run step (opened store) es = some f) (hidle : (f.device me).Idle) (p : Pair) :
    f.state.has (p.first me) = landed (store.has (p.first me)) (es.filterMap (leaves me p)) ∧
    f.state.has (p.second me) = landed (store.has (p.first me)) (es.filterMap (leaves me p)) := by
  have hopened : ∀ k, Handset.Own k ((opened store).locals k) := Handset.own_fresh
  have hfirst := p.watchedFirst.run_value es hopened hrun me
  have hsecond := p.watchedSecond.run_value es hopened hrun me
  -- with an empty queue the outcomes are what the documents hold
  have hvalueFirst : p.watchedFirst.value me (f.seen me) = f.state.has (p.first me) :=
    (p.mirror me).outcomeFirst_idle hidle.1
  have hvalueSecond : p.watchedSecond.value me (f.seen me) = f.state.has (p.second me) :=
    (p.mirror me).outcomeSecond_idle hidle.1
  rw [hvalueFirst] at hfirst
  rw [hvalueSecond] at hsecond
  refine ⟨hfirst, hsecond.trans ?_⟩
  show landed (store.has (p.second me)) _ = _
  rw [← hagree p]
  rfl

end Fleet

/-! ## Coming to rest -/

/-- The event is a call of a service, and so new work. -/
def DeviceEvent.isCall : DeviceEvent → Bool
  | .call _ => true
  | _ => false

/-- An issued call has its generations to come, each of which is issued and answered. -/
def Call.rank (k : Call) : ℕ := 3 * k.depth + 2

/-- An applied write waits for its acknowledgement only. -/
def Call.appliedRank (k : Call) : ℕ := 3 * k.depth + 1

/-- What a served read hands over has still to be issued. -/
def Reaction.rank (x : Reaction) : ℕ := (x.calls.map Call.rank).foldr max 0 + 1

/-- The work left on a device. -/
def Handset.work (p : Handset) : Multiset ℕ :=
  ↑(p.sent.map Call.rank) + ↑(p.applied.map Call.appliedRank) + ↑(p.reads.map Call.rank) +
    ↑(p.served.map Reaction.rank)

theorem Reaction.rank_lt {x : Reaction} {k : Call} (hk : k ∈ x.calls) : k.rank < x.rank := by
  have hle : k.rank ≤ (x.calls.map Call.rank).foldr max 0 :=
    List.le_max_of_le (List.mem_map_of_mem hk) le_rfl
  show k.rank < _ + 1
  omega

theorem Reaction.rank_le {x : Reaction} {n : ℕ} (h : ∀ k ∈ x.calls, k.rank ≤ n) :
    x.rank ≤ n + 1 := by
  have hle : (x.calls.map Call.rank).foldr max 0 ≤ n :=
    List.max_le_of_forall_le _ _ fun r hr => by
      obtain ⟨k, hk, rfl⟩ := List.mem_map.mp hr
      exact h k hk
  show _ + 1 ≤ n + 1
  omega

/-- What the closure of a write issues has fewer generations to come. -/
theorem Call.rank_reaction {k k' : Call} {m : Moment} (hk' : k' ∈ (k.reaction m).calls) :
    k'.rank < k.appliedRank := by
  obtain ⟨auth, request⟩ := k
  cases request with
  | write w c =>
    have hlt : k'.depth < c.depth := Completion.depth_run hk'
    show 3 * k'.depth + 2 < 3 * c.depth + 1
    omega
  | getDocuments q c => cases hk'
  | getDocument ref c => cases hk'

/-- What a served read hands over is less than the read. -/
theorem Call.rank_exec (k : Call) (r : Reply) (s : Firestore) : (k.exec r s).2.rank < k.rank := by
  have hle : (k.exec r s).2.rank ≤ 3 * k.depth + 1 := by
    refine Reaction.rank_le fun k' hk' => ?_
    have hlt : k'.depth < k.depth := Call.depth_spawned hk'
    show 3 * k'.depth + 2 ≤ 3 * k.depth
    omega
  show _ < 3 * k.depth + 2
  omega

section work

variable {sent applied reads : List Call} {served : List Reaction}

theorem Handset.work_sent (k : Call) : work ⟨k :: sent, applied, reads, served⟩ =
    work ⟨sent, applied, reads, served⟩ + {k.rank} := by
  simp only [work, List.map_cons, ← Multiset.cons_coe, ← Multiset.singleton_add]
  abel

theorem Handset.work_applied (k : Call) : work ⟨sent, applied ++ [k], reads, served⟩ =
    work ⟨sent, applied, reads, served⟩ + {k.appliedRank} := by
  simp only [work, List.map_append, List.map_singleton, ← Multiset.coe_add,
    Multiset.coe_singleton]
  abel

theorem Handset.work_acknowledged (k : Call) : work ⟨sent, k :: applied, reads, served⟩ =
    work ⟨sent, applied, reads, served⟩ + {k.appliedRank} := by
  simp only [work, List.map_cons, ← Multiset.cons_coe, ← Multiset.singleton_add]
  abel

theorem Handset.work_read {i : ℕ} {k : Call} (hk : reads[i]? = some k) :
    work ⟨sent, applied, reads, served⟩ =
      work ⟨sent, applied, reads.eraseIdx i, served⟩ + {k.rank} := by
  simp only [work, Drain.coe_map_eraseIdx Call.rank hk]
  abel

theorem Handset.work_served (x : Reaction) : work ⟨sent, applied, reads, served ++ [x]⟩ =
    work ⟨sent, applied, reads, served⟩ + {x.rank} := by
  simp only [work, List.map_append, List.map_singleton, ← Multiset.coe_add,
    Multiset.coe_singleton]
  abel

theorem Handset.work_delivered {i : ℕ} {x : Reaction} (hx : served[i]? = some x) :
    work ⟨sent, applied, reads, served⟩ =
      work ⟨sent, applied, reads, served.eraseIdx i⟩ + {x.rank} := by
  simp only [work, Drain.coe_map_eraseIdx Reaction.rank hx]
  abel

/-- The work that calls add to a device. -/
def callsWork (ks : List Call) : Multiset ℕ :=
  ↑((ks.filter Call.isWrite).map Call.rank) + ↑((ks.filter fun k => !k.isWrite).map Call.rank)

theorem mem_callsWork {ks : List Call} {n : ℕ} (h : n ∈ callsWork ks) :
    ∃ k ∈ ks, k.rank = n := by
  rcases Multiset.mem_add.mp h with h | h <;>
    obtain ⟨k, hk, rfl⟩ := List.mem_map.mp (Multiset.mem_coe.mp h) <;>
    exact ⟨k, List.mem_of_mem_filter hk, rfl⟩

theorem Handset.work_issue (ks : List Call) :
    work ⟨sent ++ ks.filter Call.isWrite, applied, reads ++ ks.filter (fun k => !k.isWrite),
      served⟩ = work ⟨sent, applied, reads, served⟩ + callsWork ks := by
  simp only [work, callsWork, List.map_append, ← Multiset.coe_add]
  abel

end work

/-- Every event but a call uses up work of its device. -/
theorem Handset.work_step {me : Uid} {s s' : Firestore × Handset} {e : DeviceEvent}
    (he : e.isCall = false) (h : Handset.step me s e = some s') :
    CutExpand (· < ·) s'.2.work s.2.work := by
  obtain ⟨store, sent, applied, reads, served⟩ := s
  obtain ⟨d, hd, rfl⟩ := Option.map_eq_some_iff.mp h
  cases e with
  | call c => cases he
  | apply =>
    cases sent with
    | nil => cases hd
    | cons k sent =>
      obtain rfl := Option.some.inj hd
      refine Drain.cutExpand_replace (work ⟨sent, applied, reads, served⟩) {k.appliedRank}
        (work_sent k) (work_applied k) fun n hn => ?_
      rw [Multiset.mem_singleton.mp hn]
      show 3 * k.depth + 1 < 3 * k.depth + 2
      omega
  | acknowledge m =>
    cases applied with
    | nil => cases hd
    | cons k applied =>
      obtain rfl := Option.some.inj hd
      refine Drain.cutExpand_replace (work ⟨sent, applied, reads, served⟩)
        (callsWork (k.reaction m).calls) (work_acknowledged k) (work_issue _) fun n hn => ?_
      obtain ⟨k', hk', rfl⟩ := mem_callsWork hn
      exact Call.rank_reaction hk'
  | serve i r =>
    obtain ⟨k, hk, rfl⟩ := Option.map_eq_some_iff.mp hd
    refine Drain.cutExpand_replace (work ⟨sent, applied, reads.eraseIdx i, served⟩)
      {(k.exec r store).2.rank} (work_read hk) (work_served _) fun n hn => ?_
    rw [Multiset.mem_singleton.mp hn]
    exact k.rank_exec r store
  | deliver i =>
    obtain ⟨⟨d', effects⟩, hd', rfl⟩ := Option.map_eq_some_iff.mp hd
    obtain ⟨x, hx, hx'⟩ := Option.map_eq_some_iff.mp hd'
    cases hx'
    refine Drain.cutExpand_replace (work ⟨sent, applied, reads, served.eraseIdx i⟩)
      (callsWork x.calls) (work_delivered hx) (work_issue _) fun n hn => ?_
    obtain ⟨k, hk, rfl⟩ := mem_callsWork hn
    exact Reaction.rank_lt hk

theorem Handset.work_eq_zero {p : Handset} : p.work = 0 ↔
    p.sent = [] ∧ p.applied = [] ∧ p.reads = [] ∧ p.served = [] := by
  simp [work]

/-- A device with work left can take an event that is no call. -/
theorem Handset.exists_step {p : Handset} (h : p.work ≠ 0) (me : Uid) (store : Firestore) :
    ∃ e s', e.isCall = false ∧ Handset.step me (store, p) e = some s' := by
  obtain ⟨sent, applied, reads, served⟩ := p
  cases sent with
  | cons k sent => exact ⟨.apply, _, rfl, rfl⟩
  | nil =>
    cases applied with
    | cons k applied => exact ⟨.acknowledge ⟨"", ⟨0, 0⟩⟩, _, rfl, rfl⟩
    | nil =>
      cases reads with
      | cons k reads => exact ⟨.serve 0 ⟨true, ⟨"", ⟨0, 0⟩⟩⟩, _, rfl, rfl⟩
      | nil =>
        cases served with
        | cons x served => exact ⟨.deliver 0, _, rfl, rfl⟩
        | nil => exact absurd rfl h

namespace Fleet

/-- The devices of finitely many accounts come to rest when no more calls are made. -/
def draining (accounts : Finset Uid) : Drain Fleet.step ℕ :=
  Clients.drain (· < ·) Nat.lt_wfRel.wf Handset.work (fun e => e.isCall = false)
    Handset.work_step accounts

/-- After a run, only the devices that took part in it have been used. -/
theorem fresh_of_run {store : Firestore} {es : List (Uid × DeviceEvent)} {f : Fleet}
    (hrun : run step (opened store) es = some f) :
    ∀ me, me ∉ (es.map Prod.fst).toFinset → f.locals me = .fresh := by
  intro me hme
  have hne : ∀ e ∈ es, e.1 ≠ me := by
    rintro e he rfl
    exact hme (List.mem_toFinset.mpr (List.mem_map_of_mem he))
  exact Clients.run_locals_of_forall_ne hne hrun

/-- Two accounts follow each other while one of them hurries. -/
def race : List (Uid × DeviceEvent) :=
  let m : Moment := ⟨"feedback", ⟨0, 0⟩⟩
  [("reader", .call (.fanUsers "author" .ignore)), ("author", .call (.fanUsers "reader" .ignore)),
   ("reader", .apply), ("reader", .call (.antiFanUser "author" .ignore)), ("author", .apply),
   ("reader", .acknowledge m), ("reader", .apply), ("author", .acknowledge m), ("reader", .apply),
   ("reader", .acknowledge m), ("reader", .acknowledge m), ("reader", .apply), ("author", .apply),
   ("reader", .acknowledge m), ("author", .acknowledge m)]

/-- The race is run to its end. -/
theorem race_idle : ∃ f, run step (opened ∅) race = some f ∧ ∀ me, (f.device me).Idle := by
  have hrun : run step (opened ∅) race = some ((run step (opened ∅) race).get (by decide)) :=
    (Option.some_get _).symm
  refine ⟨_, hrun, fun me => ?_⟩
  by_cases hme : me ∈ (race.map Prod.fst).toFinset
  · revert me
    decide
  · rw [device, fresh_of_run hrun me hme]
    decide

end Fleet

end Toontagram
