import Mathlib.Algebra.BigOperators.Group.List.Basic
import Mathlib.Data.Multiset.OrderedMonoid
import Mathlib.Tactic.Abel
import Toontagram.Lib.DocStore
import Toontagram.Lib.Flight

/-!
# Accounts of what is sent and what arrives

Something is to be delivered: not only does it not arrive where it should not, it
arrives once for each time it is sent. `Flight.balance` is what has arrived together
with what the calls in flight will still deliver, themselves or through their closures,
and one answer only moves an amount from the one to the other, or loses it
(`Flight.balance_answer`). `run_sum` and `run_le_sum` add this up over a run.

What has arrived in a store of documents is `Store.collect`, a multiset, so that equal
documents under two names count twice.
-/

namespace Toontagram.Lib

/-! ## Runs -/

section run

variable {σ ε M : Type} {step : σ → ε → Option σ} {ok : σ → ε → Prop} {P : σ → Prop}
  [AddCommMonoid M] {value : σ → M} {adds : ε → M}

/-- What each step adds, a run adds in all. -/
theorem run_sum (hstep : ∀ s e s', P s → ok s e → step s e = some s' →
      P s' ∧ value s' = value s + adds e) :
    ∀ (es : List ε) {s t : σ}, P s → Along step ok s es → run step s es = some t →
      value t = value s + (es.map adds).sum
  | [], s, t, _, _, h => by
    obtain rfl : s = t := Option.some.inj h
    rw [List.map_nil, List.sum_nil, add_zero]
  | e :: es, s, t, hs, halong, h => by
    obtain ⟨s', hs', hrest⟩ := run_cons h
    obtain ⟨hok, halong⟩ := halong
    rw [hs'] at halong
    obtain ⟨hP, hvalue⟩ := hstep s e s' hs hok hs'
    rw [run_sum hstep es hP halong hrest, hvalue, List.map_cons, List.sum_cons, add_assoc]

/-- What each step adds at most, a run adds at most in all. -/
theorem run_le_sum [PartialOrder M] [IsOrderedAddMonoid M]
    (hstep : ∀ s e s', P s → ok s e → step s e = some s' →
      P s' ∧ value s' ≤ value s + adds e) :
    ∀ (es : List ε) {s t : σ}, P s → Along step ok s es → run step s es = some t →
      value t ≤ value s + (es.map adds).sum
  | [], s, t, _, _, h => by
    obtain rfl : s = t := Option.some.inj h
    rw [List.map_nil, List.sum_nil, add_zero]
  | e :: es, s, t, hs, halong, h => by
    obtain ⟨s', hs', hrest⟩ := run_cons h
    obtain ⟨hok, halong⟩ := halong
    rw [hs'] at halong
    obtain ⟨hP, hvalue⟩ := hstep s e s' hs hok hs'
    calc value t ≤ value s' + (es.map adds).sum := run_le_sum hstep es hP halong hrest
      _ ≤ value s + adds e + (es.map adds).sum := add_le_add_left hvalue _
      _ = value s + ((e :: es).map adds).sum := by
        rw [List.map_cons, List.sum_cons, add_assoc]

end run

/-! ## Calls in flight -/

namespace Flight

variable {σ κ ω M : Type} [AddCommMonoid M] (held : σ → M) (due : κ → M)

/-- What has arrived, and what the calls in flight will still deliver. -/
def balance (f : Flight σ κ) : M := held f.state + (f.inflight.map due).sum

/-- Calls that are issued add what they will deliver. -/
theorem balance_issue (f : Flight σ κ) (ks : List κ) :
    (f.issue ks).balance held due = f.balance held due + (ks.map due).sum := by
  rw [balance, balance, issue, List.map_append, List.sum_append, add_assoc]

/-- An answer delivers, hands on to the calls of its closure, or loses what was due. -/
theorem balance_answer {exec : κ → ω → σ → σ × List κ} {f f' : Flight σ κ} {i : Nat} {o : ω}
    {k : κ} {lost : M} (hk : f.inflight[i]? = some k) (h : f.answer exec i o = some f')
    (hdue : held (exec k o f.state).1 + ((exec k o f.state).2.map due).sum + lost =
      held f.state + due k) :
    f'.balance held due + lost = f.balance held due := by
  obtain ⟨pre, k', post, hin, hlen, rfl⟩ := answer_cases h
  obtain rfl : k' = k := by
    rw [hin, getElem?_answered hlen] at hk
    exact Option.some.inj hk
  calc balance held due ⟨_, _⟩ + lost
      = held (exec k' o f.state).1 + ((exec k' o f.state).2.map due).sum + lost +
          ((pre ++ post).map due).sum := by
        simp only [balance, List.map_append, List.sum_append]
        abel
    _ = held f.state + due k' + ((pre ++ post).map due).sum := by rw [hdue]
    _ = f.balance held due := by
        simp only [balance, hin, List.map_append, List.map_cons, List.sum_append, List.sum_cons]
        abel

end Flight

/-! ## Stores -/

namespace Store

variable {C V α : Type} [DecidableEq C]

/-- What the documents of a store amount to. -/
def collect (g : DocRef C → Fields V → Option α) (s : Store C V) : Multiset α :=
  ↑(s.entries.filterMap fun e => g e.1 e.2)

variable {g : DocRef C → Fields V → Option α}

/-- Documents that do not count may change in any way. -/
theorem collect_apply_beside {s : Store C V} {w : DocWrite C V}
    (hw : ∀ data, g w.ref data = none) : collect g (w.apply s) = s.collect g :=
  congrArg Multiset.ofList (filterMap_apply_beside hw)

/-- A new document counts once more. -/
theorem collect_apply_new {s : Store C V} {r : DocRef C} (hr : s.has r = false)
    (data : Fields V) :
    collect g ((DocWrite.setData r data).apply s) = s.collect g + ↑(g r data).toList := by
  have hnot : r ∉ s := by
    rw [← AList.lookup_isSome]
    exact fun h => Bool.false_ne_true (hr.symm.trans h)
  rw [DocWrite.apply, collect, AList.entries_insert_of_notMem hnot, filterMap_entry,
    ← Multiset.coe_add, add_comm]
  rfl

end Store

end Toontagram.Lib
