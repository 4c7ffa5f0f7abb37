import Toontagram.Lib.Run

/-!
# Calls in flight

A client that works through callbacks issues calls and goes on; each call is
answered later, and the callback that receives the answer may issue further
calls. `Flight` is the state a server and all its clients share (`state`)
together with the calls that are issued and not answered (`inflight`).

`answer` picks any call in flight, wherever it stands in the list, so the
answers come in every order and after any delay. What a call does to the state
and which calls its callback issues is the parameter `exec`.
-/

namespace Toontagram.Lib

/-- A shared state and the calls that are not answered yet. -/
structure Flight (σ κ : Type) where
  state : σ
  inflight : List κ

namespace Flight

variable {σ κ ω : Type}

/-- Issue calls. -/
def issue (f : Flight σ κ) (ks : List κ) : Flight σ κ :=
  { f with inflight := f.inflight ++ ks }

/-- The `i`-th call in flight is answered by `o`. -/
def answer (exec : κ → ω → σ → σ × List κ) (f : Flight σ κ) (i : Nat) (o : ω) :
    Option (Flight σ κ) :=
  (f.inflight[i]?).map fun k =>
    ⟨(exec k o f.state).1, f.inflight.eraseIdx i ++ (exec k o f.state).2⟩

/-- What one answer can do: a call leaves the list, its effect reaches the
state, and the calls of its callback join the list. -/
theorem answer_cases {exec : κ → ω → σ → σ × List κ} {f f' : Flight σ κ} {i : Nat} {o : ω}
    (h : f.answer exec i o = some f') :
    ∃ pre k post, f.inflight = pre ++ k :: post ∧ pre.length = i ∧
      f' = ⟨(exec k o f.state).1, pre ++ post ++ (exec k o f.state).2⟩ := by
  obtain ⟨k, hk, rfl⟩ := Option.map_eq_some_iff.mp h
  obtain ⟨hi, hget⟩ := List.getElem?_eq_some_iff.mp hk
  refine ⟨f.inflight.take i, k, f.inflight.drop (i + 1), ?_, ?_, ?_⟩
  · rw [← hget, List.getElem_cons_drop, List.take_append_drop]
  · rw [List.length_take]
    omega
  · rw [List.eraseIdx_eq_take_drop_succ]

/-- The call that is answered, by its position. -/
theorem getElem?_answered {pre post : List κ} {k : κ} {i : Nat} (h : pre.length = i) :
    (pre ++ k :: post)[i]? = some k := by
  rw [List.getElem?_append_right (by omega), h, Nat.sub_self]
  rfl

/-- The calls that stay when one is answered. -/
theorem eraseIdx_answered {pre post : List κ} {k : κ} {i : Nat} (h : pre.length = i) :
    (pre ++ k :: post).eraseIdx i = pre ++ post := by
  rw [List.eraseIdx_append_of_length_le (by omega), h, Nat.sub_self]
  rfl

/-- A call that stays when another one is answered was there before. -/
theorem mem_of_kept {pre post : List κ} {x : κ} (k : κ) (hx : x ∈ pre ++ post) :
    x ∈ pre ++ k :: post := by
  rcases List.mem_append.mp hx with hx | hx
  · exact List.mem_append_left _ hx
  · exact List.mem_append_right _ (List.mem_cons_of_mem k hx)

/-- Every call in flight after an answer was there before or was just issued. -/
theorem mem_of_answered {pre post spawned : List κ} {k x : κ}
    (hx : x ∈ pre ++ post ++ spawned) : x ∈ pre ++ k :: post ∨ x ∈ spawned :=
  (List.mem_append.mp hx).imp_left (mem_of_kept k)

/-- Every call in flight before an answer is the answered one or is still there. -/
theorem mem_answered {pre post : List κ} {k x : κ} (spawned : List κ)
    (hx : x ∈ pre ++ k :: post) :
    x = k ∨ x ∈ pre ++ post ++ spawned := by
  simp only [List.mem_append, List.mem_cons] at hx ⊢
  tauto

/-- The same flight, seen through functions of the state and of the calls. -/
def map {σ' κ' : Type} (g : σ → σ') (h : κ → κ') (f : Flight σ κ) : Flight σ' κ' :=
  ⟨g f.state, f.inflight.map h⟩

/-- An answer is seen as an answer if what the call does is. -/
theorem answer_map {σ' κ' : Type} {g : σ → σ'} {h : κ → κ'} {exec : κ → ω → σ → σ × List κ}
    {exec' : κ' → ω → σ' → σ' × List κ'} {f f' : Flight σ κ} {i : Nat} {o : ω}
    (hstep : f.answer exec i o = some f')
    (hexec : ∀ k ∈ f.inflight, exec' (h k) o (g f.state) =
      (g (exec k o f.state).1, (exec k o f.state).2.map h)) :
    (f.map g h).answer exec' i o = some (f'.map g h) := by
  obtain ⟨pre, k, post, hin, hi, rfl⟩ := answer_cases hstep
  have hk : k ∈ f.inflight := by rw [hin]; simp
  have hlength : (pre.map h).length = i := by rw [List.length_map, hi]
  rw [answer, map, hin, List.map_append, List.map_cons, getElem?_answered hlength,
    eraseIdx_answered hlength, Option.map_some, hexec k hk]
  simp only [map, List.map_append]

end Flight

end Toontagram.Lib
