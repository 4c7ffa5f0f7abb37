import Toontagram.Lib.Flight

/-!
# What a group of calls comes to

Some calls are in flight, their closures issue further calls, and the answers
come in any order. If each cell of the state is written with one value only,
the order does not matter: when all are answered, a cell that one of the first
calls `owes` has its `final` value, and every other cell is as it was.

`Settling` is what has to be known of one call for this, and
`Settling.Since.settled` is the result for every run of answers. A call owes what it
writes itself and what its closures will write, so `owes` is where the outcome
of an operation is read off.
-/

namespace Toontagram.Lib

/-- A system whose calls settle the cells `ι` of the state, under an invariant
`inv` of the state and for answers that are `ok`. -/
structure Settling (σ κ ω ι α : Type) where
  exec : κ → ω → σ → σ × List κ
  ok : ω → Prop
  inv : σ → Prop
  valid : κ → Prop
  view : σ → ι → α
  final : ι → α
  /-- The call writes the cell, now or through its closures. -/
  owes : κ → ι → Prop
  inv_exec : ∀ {k o s}, inv s → valid k → ok o → inv (exec k o s).1
  valid_exec : ∀ {k o s}, inv s → valid k → ok o → ∀ k' ∈ (exec k o s).2, valid k'
  view_exec : ∀ {k o s}, inv s → valid k → ok o → ∀ i,
    view (exec k o s).1 i = view s i ∨ owes k i ∧ view (exec k o s).1 i = final i
  owes_exec : ∀ {k o s}, inv s → valid k → ok o → ∀ i, owes k i →
    view (exec k o s).1 i = final i ∨ ∃ k' ∈ (exec k o s).2, owes k' i
  owes_spawned : ∀ {k o s}, inv s → valid k → ok o → ∀ k' ∈ (exec k o s).2, ∀ i,
    owes k' i → owes k i

namespace Settling

variable {σ κ ω ι α : Type} (S : Settling σ κ ω ι α)

/-- Some call in flight owes the cell. -/
def Owed (f : Flight σ κ) (i : ι) : Prop := ∃ k ∈ f.inflight, S.owes k i

/-- How far the calls of `f₀` have come in `f`. -/
structure Since (f₀ f : Flight σ κ) : Prop where
  inv : S.inv f.state
  valid : ∀ k ∈ f.inflight, S.valid k
  owed : ∀ i, S.Owed f i → S.Owed f₀ i
  /-- Only a cell that was owed has changed, and it is final. -/
  view : ∀ i, S.view f.state i = S.view f₀.state i ∨
    S.Owed f₀ i ∧ S.view f.state i = S.final i
  due : ∀ i, S.Owed f₀ i → S.view f.state i = S.final i ∨ S.Owed f i

variable {S} {f₀ f f' : Flight σ κ}

theorem Since.refl (hinv : S.inv f₀.state) (hvalid : ∀ k ∈ f₀.inflight, S.valid k) :
    S.Since f₀ f₀ where
  inv := hinv
  valid := hvalid
  owed := fun _ h => h
  view := fun _ => Or.inl rfl
  due := fun _ h => Or.inr h

/-- One answer: what the call owes is written or handed on to its closure's calls. -/
theorem Since.answer (h : S.Since f₀ f) {i : Nat} {o : ω} (ho : S.ok o)
    (hstep : f.answer S.exec i o = some f') : S.Since f₀ f' := by
  obtain ⟨pre, k, post, hin, -, rfl⟩ := Flight.answer_cases hstep
  have hk : k ∈ f.inflight := by rw [hin]; simp
  have hvalid : S.valid k := h.valid k hk
  refine ⟨S.inv_exec h.inv hvalid ho, ?_, ?_, ?_, ?_⟩
  · intro k' hk'
    rcases Flight.mem_of_answered (k := k) hk' with hk' | hk'
    · exact h.valid k' (hin ▸ hk')
    · exact S.valid_exec h.inv hvalid ho k' hk'
  · intro j howed
    obtain ⟨k', hk', howes⟩ := howed
    rcases Flight.mem_of_answered (k := k) hk' with hk' | hk'
    · exact h.owed j ⟨k', hin ▸ hk', howes⟩
    · exact h.owed j ⟨k, hk, S.owes_spawned h.inv hvalid ho k' hk' j howes⟩
  · intro j
    rcases S.view_exec h.inv hvalid ho j with hsame | ⟨howes, hfinal⟩
    · rw [hsame]
      exact h.view j
    · exact Or.inr ⟨h.owed j ⟨k, hk, howes⟩, hfinal⟩
  · intro j hj
    rcases h.due j hj with hfinal | ⟨k', hk', howes⟩
    · rcases S.view_exec h.inv hvalid ho j with hsame | ⟨-, hfinal'⟩
      · exact Or.inl (hsame.trans hfinal)
      · exact Or.inl hfinal'
    · rw [hin] at hk'
      -- the call that owes the cell is the answered one, or it is still in flight
      rcases Flight.mem_answered (S.exec k o f.state).2 hk' with rfl | hk'
      · rcases S.owes_exec h.inv hvalid ho j howes with hfinal | ⟨k'', hk'', howes⟩
        · exact Or.inl hfinal
        · exact Or.inr ⟨k'', List.mem_append_right _ hk'', howes⟩
      · exact Or.inr ⟨k', hk', howes⟩

/-- Further calls join: they count as if they had been there from the start. -/
theorem Since.issue (h : S.Since f₀ f) {ks : List κ} (hks : ∀ k ∈ ks, S.valid k) :
    S.Since (f₀.issue ks) (f.issue ks) where
  inv := h.inv
  valid := by
    intro k hk
    rcases List.mem_append.mp hk with hk | hk
    · exact h.valid k hk
    · exact hks k hk
  owed := by
    rintro i ⟨k, hk, howes⟩
    rcases List.mem_append.mp hk with hk | hk
    · obtain ⟨k₀, hk₀, howes₀⟩ := h.owed i ⟨k, hk, howes⟩
      exact ⟨k₀, List.mem_append_left _ hk₀, howes₀⟩
    · exact ⟨k, List.mem_append_right _ hk, howes⟩
  view := by
    intro i
    rcases h.view i with hsame | ⟨⟨k, hk, howes⟩, hfinal⟩
    · exact Or.inl hsame
    · exact Or.inr ⟨⟨k, List.mem_append_left _ hk, howes⟩, hfinal⟩
  due := by
    rintro i ⟨k, hk, howes⟩
    rcases List.mem_append.mp hk with hk | hk
    · refine (h.due i ⟨k, hk, howes⟩).imp_right ?_
      rintro ⟨k', hk', howes'⟩
      exact ⟨k', List.mem_append_left _ hk', howes'⟩
    · exact Or.inr ⟨k, List.mem_append_right _ hk, howes⟩

/-- Every call is answered: the cells that were owed are final, and the others
are as they were. -/
theorem Since.settled (h : S.Since f₀ f) (hquiet : f.inflight = []) (i : ι) :
    (S.Owed f₀ i → S.view f.state i = S.final i) ∧
      (¬ S.Owed f₀ i → S.view f.state i = S.view f₀.state i) := by
  constructor
  · intro howed
    rcases h.due i howed with hfinal | ⟨k, hk, -⟩
    · exact hfinal
    · rw [hquiet] at hk
      cases hk
  · intro hnot
    exact (h.view i).resolve_right fun howed => hnot howed.1

end Settling

end Toontagram.Lib
