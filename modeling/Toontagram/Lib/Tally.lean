import Mathlib.Data.List.Basic

/-!
# A counter beside the set it counts

A stored number is meant to be the size of a stored set. Who joins the set or
leaves it sends two writes: `bump` overwrites the number by the one the sender
last saw plus or minus one, `mark` puts the sender into the set or takes it
out. The writes are pending for any time; the marks of one sender are applied
in the order sent, all others in any order.

`Sound` is what survives every step in which a bump lands on the number its
sender saw (a premise of `Step.bump`): the number and what the pending bumps
add to it equal the size of the set and what the pending marks add to that.
With nothing pending the number is the size (`Sound.level`).
-/

namespace Toontagram.Lib

/-- What joining or leaving adds. -/
def sign (b : Bool) : Int := if b then 1 else -1

/-- A pending write: `base` is the number the sender saw. -/
inductive TallyWrite (υ : Type) where
  | bump (base : Int) (b : Bool)
  | mark (u : υ) (b : Bool)
deriving DecidableEq

/-- The number, the size of the set and its members, who wants to be a member,
and the pending writes. -/
@[ext] structure Tally (υ : Type) where
  value : Int
  size : Int
  member : υ → Bool
  wants : υ → Bool
  pending : List (TallyWrite υ)

namespace Tally

variable {υ : Type} [DecidableEq υ]

/-- The function with a new value at `u`. -/
def set (f : υ → Bool) (u : υ) (b : Bool) : υ → Bool := fun v => if v = u then b else f v

/-- The marks of one sender among the writes. -/
def marksOf (u : υ) (ws : List (TallyWrite υ)) : List Bool :=
  ws.filterMap fun
    | .mark v b => if v = u then some b else none
    | .bump _ _ => none

/-- What the bumps among the writes add to the number. -/
def bumps : List (TallyWrite υ) → Int
  | [] => 0
  | .bump _ b :: ws => sign b + bumps ws
  | .mark _ _ :: ws => bumps ws

/-- What the marks among the writes add to the size, each of them changing it. -/
def marks : List (TallyWrite υ) → Int
  | [] => 0
  | .bump _ _ :: ws => marks ws
  | .mark _ b :: ws => sign b + marks ws

/-- One step. -/
inductive Step : Tally υ → Tally υ → Prop where
  | toggle {s : Tally υ} {u : υ} {b : Bool} (base : Int) (hwants : s.wants u = !b) :
      Step s { s with
        wants := set s.wants u b
        pending := s.pending ++ [.bump base b, .mark u b] }
  | bump {s : Tally υ} {base : Int} {b : Bool} {pre post : List (TallyWrite υ)}
      (hs : s.pending = pre ++ .bump base b :: post) (hseen : s.value = base) :
      Step s { s with value := base + sign b, pending := pre ++ post }
  | mark {s : Tally υ} {u : υ} {b : Bool} {pre post : List (TallyWrite υ)}
      (hs : s.pending = pre ++ .mark u b :: post) (hfirst : marksOf u pre = []) :
      Step s { s with
        size := s.size + if s.member u = b then 0 else sign b
        member := set s.member u b
        pending := pre ++ post }
  | elsewhere {s : Tally υ} : Step s s

/-! ## Lists of writes -/

omit [DecidableEq υ] in
theorem bumps_append (ws vs : List (TallyWrite υ)) : bumps (ws ++ vs) = bumps ws + bumps vs := by
  induction ws with
  | nil => simp [bumps]
  | cons w ws ih =>
    cases w with
    | bump base b => simp only [List.cons_append, bumps, ih]; omega
    | mark u b => simp only [List.cons_append, bumps, ih]

omit [DecidableEq υ] in
theorem marks_append (ws vs : List (TallyWrite υ)) : marks (ws ++ vs) = marks ws + marks vs := by
  induction ws with
  | nil => simp [marks]
  | cons w ws ih =>
    cases w with
    | bump base b => simp only [List.cons_append, marks, ih]
    | mark u b => simp only [List.cons_append, marks, ih]; omega

/-- The writes change the answer every time, and the last leaves `fin`. -/
def Leads (start : Bool) : List Bool → Bool → Prop
  | [], fin => start = fin
  | b :: bs, fin => b = !start ∧ Leads b bs fin

theorem Leads.append {start fin : Bool} {bs : List Bool} (h : Leads start bs fin) :
    Leads start (bs ++ [!fin]) (!fin) := by
  induction bs generalizing start with
  | nil => exact ⟨by rw [h], rfl⟩
  | cons b bs ih => exact ⟨h.1, ih h.2⟩

/-! ## The invariant -/

structure Sound (s : Tally υ) : Prop where
  balance : s.value + bumps s.pending = s.size + marks s.pending
  turns : ∀ u, Leads (s.member u) (marksOf u s.pending) (s.wants u)

/-- With nothing pending the number is the size. -/
theorem Sound.level {s : Tally υ} (h : s.Sound) (hquiet : s.pending = []) : s.value = s.size := by
  have := h.balance
  rw [hquiet, bumps, marks] at this
  omega

theorem Sound.toggle {s : Tally υ} {u : υ} {b : Bool} (h : s.Sound) (base : Int)
    (hwants : s.wants u = !b) :
    Sound { s with
      wants := set s.wants u b
      pending := s.pending ++ [.bump base b, .mark u b] } := by
  refine ⟨?_, fun v => ?_⟩
  · have := h.balance
    simp only [bumps_append, marks_append, bumps, marks]
    omega
  · have hv := h.turns v
    have hmarks : marksOf v (s.pending ++ [.bump base b, .mark u b]) =
        marksOf v s.pending ++ if u = v then [b] else [] := by
      simp only [marksOf, List.filterMap_append]
      by_cases huv : u = v <;> simp [huv]
    simp only [hmarks, set]
    by_cases huv : u = v
    · -- the new mark turns over what the sender wanted so far
      subst huv
      rw [hwants] at hv
      simpa using hv.append
    · rw [if_neg huv, List.append_nil, if_neg fun e => huv e.symm]
      exact hv

theorem Sound.bump {s : Tally υ} {base : Int} {b : Bool} {pre post : List (TallyWrite υ)}
    (h : s.Sound) (hs : s.pending = pre ++ .bump base b :: post) (hseen : s.value = base) :
    Sound { s with value := base + sign b, pending := pre ++ post } := by
  refine ⟨?_, fun v => ?_⟩
  · have := h.balance
    rw [hs, bumps_append, marks_append, bumps, marks] at this
    simp only [bumps_append, marks_append]
    omega
  · have := h.turns v
    rw [hs] at this
    simpa [marksOf, List.filterMap_append] using this

/-- The first pending mark of a sender changes the answer, so it changes the size. -/
theorem Sound.mark {s : Tally υ} {u : υ} {b : Bool} {pre post : List (TallyWrite υ)}
    (h : s.Sound) (hs : s.pending = pre ++ .mark u b :: post) (hfirst : marksOf u pre = []) :
    Sound { s with
      size := s.size + if s.member u = b then 0 else sign b
      member := set s.member u b
      pending := pre ++ post } := by
  have hmarks : ∀ v, marksOf v s.pending =
      marksOf v pre ++ (if u = v then [b] else []) ++ marksOf v post := by
    intro v
    rw [hs]
    simp only [marksOf, List.filterMap_append]
    by_cases huv : u = v <;> simp [huv]
  -- its marks change the answer every time, and this one is the first of them
  have hu := h.turns u
  rw [hmarks, hfirst, if_pos rfl] at hu
  obtain ⟨hb, hrest⟩ : b = !s.member u ∧ Leads b (marksOf u post) (s.wants u) := hu
  have hne : s.member u ≠ b := by
    rw [hb]
    cases s.member u <;> simp
  refine ⟨?_, fun v => ?_⟩
  · have := h.balance
    rw [hs, bumps_append, marks_append, bumps, marks] at this
    simp only [bumps_append, marks_append, if_neg hne]
    omega
  · have hv := h.turns v
    rw [hmarks] at hv
    simp only [set]
    have happend : marksOf v (pre ++ post) = marksOf v pre ++ marksOf v post := by
      simp [marksOf, List.filterMap_append]
    rw [happend]
    by_cases huv : u = v
    · subst huv
      rw [if_pos rfl, hfirst]
      exact hrest
    · rw [if_neg fun e => huv e.symm]
      rw [if_neg huv, List.append_nil] at hv
      exact hv

theorem Sound.step {s s' : Tally υ} (h : s.Sound) (hstep : Step s s') : s'.Sound := by
  cases hstep with
  | toggle base hwants => exact h.toggle base hwants
  | bump hs hseen => exact h.bump hs hseen
  | mark hs hfirst => exact h.mark hs hfirst
  | elsewhere => exact h

/-- A number that is the size of its set, with nothing pending. -/
theorem Sound.start {s : Tally υ} (hquiet : s.pending = []) (hlevel : s.value = s.size)
    (hwants : ∀ u, s.member u = s.wants u) : s.Sound := by
  refine ⟨?_, fun u => ?_⟩
  · rw [hquiet, bumps, marks, hlevel]
  · rw [hquiet]
    exact hwants u

end Tally

end Toontagram.Lib
