import Mathlib.Data.List.Induction
import Mathlib.Tactic.Common

/-!
# Runs of an executable system

A system here is a partial step function `step : σ → ε → Option σ`: the event
`e` is either enabled in `s` and leads to one state, or it is not. `run` plays
a list of events, so a run is a value that `decide` can evaluate and a
theorem about every run is a theorem about every list.

Two rules carry most of what is proved over runs:

- `run_inv`: what holds at the start and survives each step holds after the run.
- `run_inv_along`: the same when only the steps that meet a condition preserve
  it; `Along` says that every step of a run meets the condition, each in the
  state it is taken in. `run_inv_of_forall` is for a condition on the events alone.

`run_inv_past` is the rule for an invariant that speaks of the events so far.

`run_iff_along` is for a condition that is exact: where a step that misses it
always destroys the property, and nothing restores it, the property after a run
says that all steps have met the condition. `run_always_iff_along` is for one that
is exact as long as the property holds: the property holds all along a run
exactly when all steps meet the condition.

`run_refines` carries a run over to another system, one step to any number of steps.

`exists_run_to` is the progress rule: a run to a state that is awaited, when some
event brings every other state nearer to it.
-/

namespace Toontagram.Lib

variable {σ ε : Type}

/-- Play a list of events; `none` as soon as one of them is not enabled. -/
def run (step : σ → ε → Option σ) : σ → List ε → Option σ
  | s, [] => some s
  | s, e :: es => (step s e).bind fun s' => run step s' es

/-- Every event of the list meets `ok` in the state it is played in. -/
def Along (step : σ → ε → Option σ) (ok : σ → ε → Prop) : σ → List ε → Prop
  | _, [] => True
  | s, e :: es =>
    ok s e ∧ match step s e with
      | some s' => Along step ok s' es
      | none => True

instance Along.decidable (step : σ → ε → Option σ) (ok : σ → ε → Prop)
    [∀ s e, Decidable (ok s e)] : ∀ s es, Decidable (Along step ok s es)
  | _, [] => .isTrue trivial
  | s, e :: es =>
    match h : step s e with
    | some s' =>
      have := Along.decidable step ok s' es
      decidable_of_iff (ok s e ∧ Along step ok s' es) (by rw [Along, h])
    | none => decidable_of_iff (ok s e) (by rw [Along, h]; simp)

variable {step : σ → ε → Option σ} {ok : σ → ε → Prop} {P : σ → Prop}

/-- A run that starts with `e` takes the step `e` first. -/
theorem run_cons {s t : σ} {e : ε} {es : List ε} (h : run step s (e :: es) = some t) :
    ∃ s', step s e = some s' ∧ run step s' es = some t :=
  Option.bind_eq_some_iff.mp h

/-- A run of two parts goes through the state between them. -/
theorem run_append {s : σ} (es fs : List ε) :
    run step s (es ++ fs) = (run step s es).bind fun t => run step t fs := by
  induction es generalizing s with
  | nil => rfl
  | cons e es ih =>
    rw [List.cons_append, run, run, Option.bind_assoc]
    exact congrArg _ (funext fun s' => ih)

/-- A condition that every event meets in any state. -/
theorem along_of_forall {es : List ε} (h : ∀ e ∈ es, ∀ s, ok s e) (s : σ) :
    Along step ok s es := by
  induction es generalizing s with
  | nil => trivial
  | cons e es ih =>
    refine ⟨h e (List.mem_cons_self ..) s, ?_⟩
    cases step s e with
    | none => trivial
    | some s' => exact ih (fun e' he' => h e' (List.mem_cons_of_mem _ he')) s'

/-- Two conditions that are met along a run. -/
theorem Along.and {ok' : σ → ε → Prop} :
    ∀ {es : List ε} {s : σ}, Along step ok s es → Along step ok' s es →
      Along step (fun s e => ok s e ∧ ok' s e) s es
  | [], _, _, _ => trivial
  | e :: es, s, h, h' => by
    obtain ⟨hok, hrest⟩ := h
    obtain ⟨hok', hrest'⟩ := h'
    refine ⟨⟨hok, hok'⟩, ?_⟩
    cases hstep : step s e with
    | none => trivial
    | some s' =>
      rw [hstep] at hrest hrest'
      exact hrest.and hrest'

/-- The conditional invariant rule. -/
theorem run_inv_along (hstep : ∀ s e s', P s → ok s e → step s e = some s' → P s') :
    ∀ (es : List ε) {s t : σ}, P s → Along step ok s es → run step s es = some t → P t
  | [], s, t, hs, _, h => by
    have hst : s = t := by simpa [run] using h
    exact hst ▸ hs
  | e :: es, s, t, hs, hok, h => by
    obtain ⟨s', hs', hrest⟩ := run_cons h
    obtain ⟨hoke, hok'⟩ := hok
    rw [hs'] at hok'
    exact run_inv_along hstep es (hstep s e s' hs hoke hs') hok' hrest

/-- The invariant rule for runs of the events `A`. -/
theorem run_inv_of_forall {A : ε → Prop}
    (hstep : ∀ s e s', P s → A e → step s e = some s' → P s') {es : List ε}
    (hes : ∀ e ∈ es, A e) {s t : σ} (hs : P s) (h : run step s es = some t) : P t := by
  have halong : Along step (fun _ e => A e) s es := along_of_forall (fun e he _ => hes e he) s
  exact run_inv_along hstep es hs halong h

/-- The invariant rule: what every step preserves, every run preserves. -/
theorem run_inv (hstep : ∀ s e s', P s → step s e = some s' → P s')
    (es : List ε) {s t : σ} (hs : P s) (h : run step s es = some t) : P t :=
  run_inv_of_forall (A := fun _ => True) (fun s e s' hs _ h => hstep s e s' hs h)
    (fun _ _ => trivial) hs h

/-- The invariant rule where the invariant is about the past of the run: `P es s` after the
events `es`. -/
theorem run_inv_past {s t : σ} {es : List ε} {P : List ε → σ → Prop} (hs : P [] s)
    (hstep : ∀ es₁ e u u', es₁ ++ [e] <+: es → run step s es₁ = some u → P es₁ u →
      step u e = some u' → P (es₁ ++ [e]) u') (h : run step s es = some t) : P es t := by
  have hprefix : ∀ fs, fs <+: es → ∀ u, run step s fs = some u → P fs u := by
    intro fs
    induction fs using List.reverseRecOn with
    | nil =>
      intro _ u hu
      obtain rfl : s = u := Option.some.inj hu
      exact hs
    | append_singleton fs e ih =>
      intro hfs u hu
      rw [run_append] at hu
      obtain ⟨u₀, hu₀, hu⟩ := Option.bind_eq_some_iff.mp hu
      obtain ⟨u', hu', hu⟩ := run_cons hu
      obtain rfl : u' = u := Option.some.inj hu
      exact hstep fs e u₀ u' hfs hu₀ (ih ((List.prefix_append ..).trans hfs) u₀ hu₀) hu'
  exact hprefix es List.prefix_rfl t h

/-- The exact rule: `Q` is kept by the steps that meet `ok`, lost by the others
and never restored; `P` is an invariant that the argument for a step may use. -/
theorem run_iff_along {Q : σ → Prop} (hP : ∀ s e s', P s → step s e = some s' → P s')
    (hQ : ∀ s e s', P s → step s e = some s' → (Q s' ↔ Q s ∧ ok s e)) :
    ∀ (es : List ε) {s t : σ}, P s → run step s es = some t →
      (Q t ↔ Q s ∧ Along step ok s es)
  | [], s, t, _, h => by
    obtain rfl : s = t := Option.some.inj h
    exact (and_iff_left trivial).symm
  | e :: es, s, t, hs, h => by
    obtain ⟨s', hs', hrest⟩ := run_cons h
    rw [run_iff_along hP hQ es (hP s e s' hs hs') hrest, hQ s e s' hs hs', Along, hs', and_assoc]

/-- The exact rule for a property that may come back: it holds all along a run
exactly when all steps meet `ok`, which is exact while it holds. -/
theorem run_always_iff_along {Q : σ → Prop} (hP : ∀ s e s', P s → step s e = some s' → P s')
    (hQ : ∀ s e s', P s → Q s → step s e = some s' → (Q s' ↔ ok s e)) :
    ∀ (es : List ε) {s t : σ}, P s → Q s → run step s es = some t →
      ((∀ es₁ es₂ u, es = es₁ ++ es₂ → run step s es₁ = some u → Q u) ↔ Along step ok s es)
  | [], s, t, _, hQs, _ => by
    refine iff_of_true (fun es₁ es₂ u hes hu => ?_) trivial
    obtain ⟨rfl, -⟩ := List.nil_eq_append_iff.mp hes
    obtain rfl : s = u := Option.some.inj hu
    exact hQs
  | e :: es, s, t, hs, hQs, h => by
    obtain ⟨s', hs', hrest⟩ := run_cons h
    have ih := fun hQs' => run_always_iff_along hP hQ es (hP s e s' hs hs') hQs' hrest
    have hcons : ∀ es₁, run step s (e :: es₁) = run step s' es₁ := fun es₁ => by
      rw [run, hs', Option.bind_some]
    rw [Along, hs']
    constructor
    · intro hall
      have hQs' : Q s' := hall [e] es s' rfl (by rw [hcons, run])
      refine ⟨(hQ s e s' hs hQs hs').mp hQs', (ih hQs').mp fun es₁ es₂ u hes hu => ?_⟩
      exact hall (e :: es₁) es₂ u (by rw [hes, List.cons_append]) (by rw [hcons, hu])
    · rintro ⟨hok, halong⟩ es₁ es₂ u hes hu
      have hQs' : Q s' := (hQ s e s' hs hQs hs').mpr hok
      cases es₁ with
      | nil =>
        obtain rfl : s = u := Option.some.inj hu
        exact hQs
      | cons e₁ es₁ =>
        obtain ⟨rfl, htail⟩ := List.cons.inj hes
        rw [hcons] at hu
        exact (ih hQs').mpr halong es₁ es₂ u htail hu

theorem Along.append {fs : List ε} {t : σ} :
    ∀ {es : List ε} {s : σ}, Along step ok s es → run step s es = some t → Along step ok t fs →
      Along step ok s (es ++ fs)
  | [], s, _, h, hfs => by
    obtain rfl : s = t := Option.some.inj h
    exact hfs
  | e :: es, s, hok, h, hfs => by
    obtain ⟨s', hs', hrest⟩ := run_cons h
    obtain ⟨hoke, hok'⟩ := hok
    rw [hs'] at hok'
    refine ⟨hoke, ?_⟩
    rw [hs']
    exact hok'.append hrest hfs

/-- The refinement rule: a step that meets `ok` is matched by the events `image` of another
system, in the states that `abs` maps to, and so is a run of such steps. What is asked of the
events of the other system, `ok'`, they meet. -/
theorem run_refines {σ' ε' : Type} {step' : σ' → ε' → Option σ'} {ok' : σ' → ε' → Prop}
    {abs : σ → σ'} {image : ε → List ε'}
    (hstep : ∀ s e s', P s → ok s e → step s e = some s' → P s' ∧
      run step' (abs s) (image e) = some (abs s') ∧ Along step' ok' (abs s) (image e)) :
    ∀ (es : List ε) {s t : σ}, P s → Along step ok s es → run step s es = some t →
      run step' (abs s) (es.flatMap image) = some (abs t) ∧
        Along step' ok' (abs s) (es.flatMap image)
  | [], s, t, _, _, h => by
    obtain rfl : s = t := Option.some.inj h
    exact ⟨rfl, trivial⟩
  | e :: es, s, t, hs, hok, h => by
    obtain ⟨s', hs', hrest⟩ := run_cons h
    obtain ⟨hoke, hok'⟩ := hok
    rw [hs'] at hok'
    obtain ⟨hP, himage, halong⟩ := hstep s e s' hs hoke hs'
    obtain ⟨hrun, halong'⟩ := run_refines hstep es hP hok' hrest
    rw [List.flatMap_cons, run_append, himage, Option.bind_some]
    exact ⟨hrun, halong.append himage halong'⟩

/-- A condition that each event meets where it stands in the run. -/
theorem along_of_prefix : ∀ (es : List ε) {s : σ},
    (∀ es₁ e es₂ u, es = es₁ ++ e :: es₂ → run step s es₁ = some u → ok u e) → Along step ok s es
  | [], _, _ => trivial
  | e :: es, s, h => by
    refine ⟨h [] e es s rfl rfl, ?_⟩
    cases hstep : step s e with
    | none => trivial
    | some s' =>
      refine along_of_prefix es fun es₁ e' es₂ u hes hu => ?_
      refine h (e :: es₁) e' es₂ u (by rw [hes, List.cons_append]) ?_
      rw [run, hstep, Option.bind_some, hu]

/-- The progress rule: events `A` lead to a state `Q`, where one of them always
brings the state nearer to it. -/
theorem exists_run_to {Q : σ → Prop} {A : ε → Prop} (measure : σ → Nat)
    (hstep : ∀ s, P s → ¬ Q s → ∃ e s', A e ∧ step s e = some s' ∧ P s' ∧ measure s' < measure s)
    (s : σ) (hs : P s) : ∃ es t, (∀ e ∈ es, A e) ∧ run step s es = some t ∧ Q t := by
  by_cases hQ : Q s
  · exact ⟨[], s, fun e he => absurd he List.not_mem_nil, rfl, hQ⟩
  · obtain ⟨e, s', hA, hs', hP, hlt⟩ := hstep s hs hQ
    obtain ⟨es, t, hes, hrun, ht⟩ := exists_run_to measure hstep s' hP
    refine ⟨e :: es, t, ?_, by rw [run, hs', Option.bind_some, hrun], ht⟩
    intro e' he'
    rcases List.mem_cons.mp he' with rfl | he'
    · exact hA
    · exact hes e' he'
termination_by measure s

end Toontagram.Lib
