import Mathlib.Algebra.BigOperators.Group.Finset.Piecewise
import Mathlib.Algebra.BigOperators.Group.Finset.Basic
import Toontagram.Lib.Drain
import Toontagram.Lib.Outbox

/-!
# Many clients of one server

`one` says what one client does with the server's state and its own. `Clients`
lets any number of them take steps in any order, and what is known of one client
alone carries over:

- `run_locals`: what every client keeps of its own state;
- `Watched.run_value`: a value that a client's own events overwrite, and that the
  events of the others leave alone, is what its own last event has left, however the
  events are interleaved;
- `drain`: if every client runs out of work by itself, any finite number of them do
  together.
-/

namespace Toontagram.Lib

/-- The state of the server and that of every client. -/
structure Clients (κ σ τ : Type) where
  state : σ
  locals : κ → τ

namespace Clients

variable {κ σ τ ε ι α : Type} [DecidableEq κ]

/-- The part a client sees: the server and its own state. -/
def seen (c : Clients κ σ τ) (k : κ) : σ × τ := (c.state, c.locals k)

/-- One client takes a step. -/
def step (one : κ → σ × τ → ε → Option (σ × τ)) (c : Clients κ σ τ) (e : κ × ε) :
    Option (Clients κ σ τ) :=
  (one e.1 (c.seen e.1) e.2).map fun p => ⟨p.1, Function.update c.locals e.1 p.2⟩

variable {one : κ → σ × τ → ε → Option (σ × τ)} {c c' : Clients κ σ τ} {e : κ × ε}

/-- The client takes its step, and no other client's state changes. -/
theorem step_cases (h : step one c e = some c') :
    one e.1 (c.seen e.1) e.2 = some (c'.seen e.1) ∧ ∀ k, k ≠ e.1 → c'.locals k = c.locals k := by
  obtain ⟨p, hp, rfl⟩ := Option.map_eq_some_iff.mp h
  refine ⟨?_, fun k hk => Function.update_of_ne hk _ _⟩
  have hself : Function.update c.locals e.1 p.2 e.1 = p.2 := Function.update_self _ _ _
  rw [hp, seen]
  simp only [hself]

/-- What each client keeps of its own state holds of all clients after a run. -/
theorem run_locals {inv : κ → τ → Prop}
    (hone : ∀ k s e s', inv k s.2 → one k s e = some s' → inv k s'.2) (es : List (κ × ε))
    (hc : ∀ k, inv k (c.locals k)) (h : run (step one) c es = some c') :
    ∀ k, inv k (c'.locals k) := by
  have hstep : ∀ (c : Clients κ σ τ) e c', (∀ k, inv k (c.locals k)) → step one c e = some c' →
      ∀ k, inv k (c'.locals k) := by
    intro c e c' hc hstep k
    obtain ⟨hown, hothers⟩ := step_cases hstep
    by_cases hk : k = e.1
    · subst hk
      exact hone _ _ _ _ (hc e.1) hown
    · rw [hothers k hk]
      exact hc k
  exact run_inv hstep es hc h

/-- A client that takes no step has the state it had. -/
theorem run_locals_of_forall_ne {k : κ} {es : List (κ × ε)} (hes : ∀ e ∈ es, e.1 ≠ k)
    (h : run (step one) c es = some c') : c'.locals k = c.locals k := by
  have hstep : ∀ (d : Clients κ σ τ) e d', d.locals k = c.locals k → e.1 ≠ k →
      step one d e = some d' → d'.locals k = c.locals k :=
    fun d e d' hd he hstep => ((step_cases hstep).2 k he.symm).trans hd
  exact run_inv_of_forall hstep hes rfl h

/-- A value of the server and a client that only the client's own events `writes`. -/
structure Watched (one : κ → σ × τ → ε → Option (σ × τ)) (α : Type) where
  inv : κ → τ → Prop
  value : κ → σ × τ → α
  writes : ε → Option α
  inv_own : ∀ {k s e s'}, inv k s.2 → one k s e = some s' → inv k s'.2
  value_own : ∀ {k s e s'}, inv k s.2 → one k s e = some s' →
    value k s' = landed (value k s) (writes e).toList
  value_other : ∀ {k k' s e s'}, k' ≠ k → inv k' s.2 → one k' s e = some s' →
    ∀ l, value k (s'.1, l) = value k (s.1, l)

namespace Watched

variable (w : Watched one α)

/-- What an event writes to the value of the client `k`. -/
def ownWrites (k : κ) (e : κ × ε) : Option α := if e.1 = k then w.writes e.2 else none

/-- However the steps of the clients are interleaved, the value of a client is what
its own last event that writes it has left. -/
theorem run_value (es : List (κ × ε)) (hc : ∀ k, w.inv k (c.locals k))
    (h : run (step one) c es = some c') (k : κ) :
    w.value k (c'.seen k) = landed (w.value k (c.seen k)) (es.filterMap (w.ownWrites k)) := by
  refine run_landed (fun c => ∀ k, w.inv k (c.locals k)) (fun c => w.value k (c.seen k))
    (w.ownWrites k) (fun c e c' hc hstep => ⟨?_, ?_⟩) es hc h
  · exact run_locals (fun k s e s' => w.inv_own) [e] hc (by rw [run, hstep]; rfl)
  · obtain ⟨hown, hothers⟩ := step_cases hstep
    by_cases hk : e.1 = k
    · subst hk
      rw [ownWrites, if_pos rfl]
      exact w.value_own (hc e.1) hown
    · rw [ownWrites, if_neg hk]
      show w.value k (c'.state, c'.locals k) = w.value k (c.state, c.locals k)
      rw [hothers k (Ne.symm hk)]
      exact w.value_other hk (hc e.1) hown (c.locals k)

end Watched

/-! ## Work -/

/-- The work of some clients, when one event of one of them replaces an item of its
own work by lower ones. -/
theorem cutExpand_step {lt : ι → ι → Prop} {work : τ → Multiset ι} {clients : Finset κ}
    (he : e.1 ∈ clients) (h : step one c e = some c')
    (hcut : Relation.CutExpand lt (work (c'.locals e.1)) (work (c.locals e.1))) :
    Relation.CutExpand lt (∑ k ∈ clients, work (c'.locals k))
      (∑ k ∈ clients, work (c.locals k)) := by
  have hothers : ∑ k ∈ clients.erase e.1, work (c'.locals k) =
      ∑ k ∈ clients.erase e.1, work (c.locals k) := by
    refine Finset.sum_congr rfl fun k hk => ?_
    rw [(step_cases h).2 k (Finset.ne_of_mem_erase hk)]
  rw [← Finset.sum_erase_add _ _ he, ← Finset.sum_erase_add _ _ he, hothers]
  exact (Relation.cutExpand_add_left _).mpr hcut

/-- Each client's own work runs out, so that of finitely many clients does. -/
def drain (lt : ι → ι → Prop) (wf : WellFounded lt) (work : τ → Multiset ι) (drains : ε → Prop)
    (cut : ∀ {k s e s'}, drains e → one k s e = some s' →
      Relation.CutExpand lt (work s'.2) (work s.2)) (clients : Finset κ) :
    Drain (step one) ι where
  work c := ∑ k ∈ clients, work (c.locals k)
  lt := lt
  wf := wf
  drains e := e.1 ∈ clients ∧ drains e.2
  cut he h := cutExpand_step he.1 h (cut he.2 (step_cases h).1)

end Clients

end Toontagram.Lib
