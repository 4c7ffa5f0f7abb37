import Mathlib.Data.List.Basic
import Mathlib.Tactic.Common

/-!
# A feed kept by fan-out

One publisher and one subscriber. The subscriber's feed is a stored copy of a
join: it should hold an item of the publisher exactly when the subscriber is
among the publisher's members. No step sees the join; two loops maintain it.

- Publishing an item puts it among the publisher's items (`post`) and, at the
  same time, reads the list of members (`read`); every member found gets the
  item (`deliver`).
- Subscribing or unsubscribing writes the subscriber's own note (`note`), then
  the publisher's list of members (`enrol`), then reads the publisher's items
  (`list`) and puts each of them into the feed or takes it out (`edit`).

Each of these is a separate request; they are under way for any time and are
answered in any order (`FanOut.flight`). The join then holds once nothing is
under way (`Sound.join`), provided two things, which are premises of
`FanOut.Step`: the subscriber starts a new change only when its last one is
finished, and when it reads the publisher's items the state is `Calm`.

`Calm` is the race that remains. A subscription misses an item that is not
among the items yet and whose publisher has already read the members without
finding the subscriber. An unsubscription misses an item whose delivery is
still under way, or which is delivered already and not yet among the items.
-/

namespace Toontagram.Lib

/-- A request of the publisher or of the subscriber. -/
inductive Role (ι : Type) where
  | post (x : ι)
  | read (x : ι)
  | deliver (x : ι)
  | note (b : Bool)
  | enrol (b : Bool)
  | list (b : Bool)
  | edit (b : Bool) (x : ι)
deriving DecidableEq

namespace Role

variable {ι : Type}

/-- The requests a change of subscription makes one after the other. -/
def ofChain : Role ι → Bool
  | .note _ => true
  | .enrol _ => true
  | .list _ => true
  | _ => false

/-- The requests a change of subscription makes at all. -/
def ofSubscriber : Role ι → Bool
  | .edit _ _ => true
  | ρ => ρ.ofChain

theorem ofChain_of_ofSubscriber {ρ : Role ι} (h : ρ.ofSubscriber = false) : ρ.ofChain = false := by
  cases ρ with
  | edit b x => rfl
  | post | read | deliver | note | enrol | list => exact h

end Role

/-- The subscriber's note, whether it is a member, the items of the publisher,
the feed, and the requests under way. -/
@[ext] structure FanOut (ι : Type) where
  note : Bool
  member : Bool
  posted : ι → Prop
  feed : ι → Prop
  flight : List (Role ι)

namespace FanOut

variable {ι : Type}

/-- The item is the publisher's, even if it is not stored yet. -/
def Known (s : FanOut ι) (x : ι) : Prop := s.posted x ∨ .post x ∈ s.flight

/-- No publication that would be missed by a change to `b` is under way. -/
def Calm (s : FanOut ι) : Bool → Prop
  | true => ∀ x, .post x ∈ s.flight →
      .read x ∈ s.flight ∨ s.feed x ∨ .deliver x ∈ s.flight
  | false => ∀ x, .deliver x ∉ s.flight ∧ (.post x ∈ s.flight → ¬ s.feed x)

/-- One step. `elsewhere` is a change of the feed by other publishers. -/
inductive Step : FanOut ι → FanOut ι → Prop where
  | publish {s : FanOut ι} {x : ι} (hx : ¬ s.Known x) (hfeed : ¬ s.feed x) :
      Step s { s with flight := s.flight ++ [.post x, .read x] }
  | subscribe {s : FanOut ι} {b : Bool} (hidle : ∀ ρ ∈ s.flight, ρ.ofSubscriber = false) :
      Step s { s with flight := s.flight ++ [.note b] }
  | post {s : FanOut ι} {x : ι} {pre rest : List (Role ι)} {posted : ι → Prop}
      (hs : s.flight = pre ++ .post x :: rest) (hposted : ∀ y, posted y ↔ s.posted y ∨ y = x) :
      Step s { s with posted := posted, flight := pre ++ rest }
  | read {s : FanOut ι} {x : ι} {pre rest found : List (Role ι)}
      (hs : s.flight = pre ++ .read x :: rest)
      (hfound : ∀ ρ, ρ ∈ found ↔ ρ = .deliver x ∧ s.member = true) :
      Step s { s with flight := pre ++ rest ++ found }
  | deliver {s : FanOut ι} {x : ι} {pre rest : List (Role ι)} {feed : ι → Prop}
      (hs : s.flight = pre ++ .deliver x :: rest) (hfeed : ∀ y, feed y ↔ s.feed y ∨ y = x) :
      Step s { s with feed := feed, flight := pre ++ rest }
  | note {s : FanOut ι} {b : Bool} {pre rest : List (Role ι)}
      (hs : s.flight = pre ++ .note b :: rest) :
      Step s { s with note := b, flight := pre ++ rest ++ [.enrol b] }
  | enrol {s : FanOut ι} {b : Bool} {pre rest : List (Role ι)}
      (hs : s.flight = pre ++ .enrol b :: rest) :
      Step s { s with member := b, flight := pre ++ rest ++ [.list b] }
  | list {s : FanOut ι} {b : Bool} {pre rest : List (Role ι)} {items : List ι}
      (hs : s.flight = pre ++ .list b :: rest) (hitems : ∀ x, x ∈ items ↔ s.posted x)
      (hcalm : s.Calm b) :
      Step s { s with flight := pre ++ rest ++ items.map (.edit b) }
  | edit {s : FanOut ι} {b : Bool} {x : ι} {pre rest : List (Role ι)} {feed : ι → Prop}
      (hs : s.flight = pre ++ .edit b x :: rest)
      (hfeed : ∀ y, feed y ↔ y = x ∧ b = true ∨ y ≠ x ∧ s.feed y) :
      Step s { s with feed := feed, flight := pre ++ rest }
  | elsewhere {s : FanOut ι} {feed : ι → Prop} (hfeed : ∀ x, s.Known x → (feed x ↔ s.feed x)) :
      Step s { s with feed := feed }

/-! ## The invariant -/

/-- The chained requests under way. -/
def chain (s : FanOut ι) : List (Role ι) := s.flight.filter Role.ofChain

/-- No item is being put into the feed or taken out by the subscriber. -/
def NoEdit (s : FanOut ι) : Prop := ∀ b x, .edit b x ∉ s.flight

/-- A member has, or will be given, every item; who is no member has none, or
will lose it. -/
def Kept (s : FanOut ι) : Prop :=
  ∀ x, s.Known x →
    (s.member = true → .read x ∈ s.flight ∨ s.feed x ∨ .deliver x ∈ s.flight ∨
      .edit true x ∈ s.flight) ∧
    (s.member = false → .deliver x ∉ s.flight ∧ (s.feed x → .edit false x ∈ s.flight))

/-- How far the subscriber is with its last change. -/
inductive Phase (s : FanOut ι) : Prop where
  | resting (hchain : s.chain = []) (hnote : s.note = s.member)
      (hedit : ∀ x, .edit (!s.member) x ∉ s.flight) (hkept : s.Kept)
  | noting (b : Bool) (hchain : s.chain = [.note b]) (hnote : s.note = s.member)
      (hedit : s.NoEdit) (hkept : s.Kept)
  | enrolling (b : Bool) (hchain : s.chain = [.enrol b]) (hnote : s.note = b)
      (hedit : s.NoEdit) (hkept : s.Kept)
  | listing (b : Bool) (hchain : s.chain = [.list b]) (hnote : s.note = b)
      (hmember : s.member = b) (hedit : s.NoEdit)

/-- The invariant of every run. -/
structure Sound (s : FanOut ι) : Prop where
  known : ∀ x, .read x ∈ s.flight ∨ .deliver x ∈ s.flight → s.Known x
  listed : ∀ b x, .edit b x ∈ s.flight → s.posted x
  phase : s.Phase

/-- Once nothing is under way the feed is the join. -/
theorem Sound.join {s : FanOut ι} (h : s.Sound) (hquiet : s.flight = []) :
    s.note = s.member ∧ ∀ x, s.posted x → (s.feed x ↔ s.member = true) := by
  have hchain : s.chain = [] := by rw [chain, hquiet]; rfl
  cases h.phase with
  | resting _ hnote _ hkept =>
    refine ⟨hnote, fun x hx => ?_⟩
    obtain ⟨hin, hout⟩ := hkept x (Or.inl hx)
    rw [hquiet] at hin hout
    cases hm : s.member with
    | true => simpa using hin hm
    | false => simpa using (hout hm).2
  -- in the other phases a chained request is still under way
  | noting b hc => rw [hchain] at hc; cases hc
  | enrolling b hc => rw [hchain] at hc; cases hc
  | listing b hc => rw [hchain] at hc; cases hc

/-! ## The chain under a step -/

/-- A request outside the chain leaves the chain alone when it is answered. -/
private theorem filter_answer {ρ : Role ι} (pre rest spawned : List (Role ι))
    (hρ : ρ.ofChain = false) (hspawned : ∀ σ ∈ spawned, σ.ofChain = false) :
    (pre ++ rest ++ spawned).filter Role.ofChain = (pre ++ ρ :: rest).filter Role.ofChain := by
  have : spawned.filter Role.ofChain = [] :=
    List.filter_eq_nil_iff.mpr fun σ hσ => by rw [hspawned σ hσ]; simp
  rw [List.filter_append, this, List.append_nil, List.filter_append, List.filter_append,
    List.filter_cons_of_neg (by rw [hρ]; simp)]

/-- A chained request under way is the only one, and what it issues replaces it. -/
private theorem filter_chain {ρ σ : Role ι} {pre rest : List (Role ι)}
    (spawned : List (Role ι)) (hρ : ρ.ofChain = true)
    (h : (pre ++ ρ :: rest).filter Role.ofChain = [σ]) :
    σ = ρ ∧ (pre ++ rest ++ spawned).filter Role.ofChain = spawned.filter Role.ofChain := by
  rw [List.filter_append, List.filter_cons_of_pos hρ] at h
  obtain ⟨hpre, hrest⟩ : pre.filter Role.ofChain = [] ∧
      ρ :: rest.filter Role.ofChain = [σ] := by
    cases hp : pre.filter Role.ofChain with
    | nil => exact ⟨rfl, by rw [← h, hp]; rfl⟩
    | cons a l => rw [hp] at h; simp at h
  obtain ⟨rfl, hnil⟩ := List.cons.inj hrest
  exact ⟨rfl, by rw [List.filter_append, List.filter_append, hpre, hnil]; rfl⟩

/-- A chained request cannot be under way in a phase without one. -/
private theorem chain_ne_nil {s : FanOut ι} {ρ : Role ι} {pre rest : List (Role ι)}
    (hs : s.flight = pre ++ ρ :: rest) (hρ : ρ.ofChain = true) : s.chain ≠ [] := by
  intro h
  rw [chain, hs] at h
  exact List.filter_eq_nil_iff.mp h ρ (by simp) hρ

/-- A chained request under way is the one of the phase. -/
private theorem Phase.chain_eq {s : FanOut ι} (h : s.Phase) {ρ : Role ι} {pre rest : List (Role ι)}
    (hs : s.flight = pre ++ ρ :: rest) (hρ : ρ.ofChain = true) : s.chain = [ρ] := by
  have hone : ∀ σ, s.chain = [σ] → s.chain = [ρ] := by
    intro σ hc
    have hσ := hc
    rw [chain, hs] at hσ
    rw [hc, (filter_chain [] hρ hσ).1]
  cases h with
  | resting hc => exact absurd hc (chain_ne_nil hs hρ)
  | noting b hc | enrolling b hc | listing b hc => exact hone _ hc

/-- What the answered request of the chain issues is the chain afterwards. -/
private theorem chain_answered {s : FanOut ι} {ρ : Role ι} {pre rest : List (Role ι)}
    (hs : s.flight = pre ++ ρ :: rest) (hρ : ρ.ofChain = true) (hchain : s.chain = [ρ])
    (spawned : List (Role ι)) :
    (pre ++ rest ++ spawned).filter Role.ofChain = spawned.filter Role.ofChain := by
  rw [chain, hs] at hchain
  exact (filter_chain spawned hρ hchain).2

/-- An answer that issues nothing takes one request away. -/
private theorem mem_taken {s : FanOut ι} {ρ : Role ι} {pre rest : List (Role ι)}
    (hs : s.flight = pre ++ ρ :: rest) :
    ∀ σ, σ ≠ ρ → (σ ∈ pre ++ rest ↔ σ ∈ s.flight) := by
  intro σ hσ
  rw [hs]
  simp [hσ]

private theorem mem_of_taken {s : FanOut ι} {ρ : Role ι} {pre rest : List (Role ι)}
    (hs : s.flight = pre ++ ρ :: rest) : ∀ σ, σ ∈ pre ++ rest → σ ∈ s.flight := by
  intro σ hσ
  rw [hs]
  simp only [List.mem_append, List.mem_cons] at hσ ⊢
  tauto

/-- If the request is not chained, the chain stays. -/
private theorem chain_taken {s : FanOut ι} {ρ : Role ι} {pre rest : List (Role ι)}
    (hs : s.flight = pre ++ ρ :: rest) (hρ : ρ.ofChain = false) :
    (pre ++ rest).filter Role.ofChain = s.chain := by
  have hc := filter_answer pre rest [] hρ (by simp)
  rw [chain, hs, ← hc, List.append_nil]

/-- An answer in the chain that issues the next request changes nothing outside it. -/
private theorem mem_chained {s : FanOut ι} {ρ τ : Role ι} {pre rest : List (Role ι)}
    (hs : s.flight = pre ++ ρ :: rest) (hρ : ρ.ofChain = true) (hτ : τ.ofChain = true) :
    ∀ σ : Role ι, σ.ofChain = false → (σ ∈ pre ++ rest ++ [τ] ↔ σ ∈ s.flight) := by
  intro σ hσ
  have hneρ : σ ≠ ρ := fun h => by rw [h, hρ] at hσ; cases hσ
  have hneτ : σ ≠ τ := fun h => by rw [h, hτ] at hσ; cases hσ
  rw [hs]
  simp [hneρ, hneτ]

/-! ## Each step preserves the invariant -/

/-- The promises stay kept when no request that carries an item to the feed
comes or goes. -/
private theorem Kept.congr {s s' : FanOut ι} (h : s.Kept) (hmember : s'.member = s.member)
    (hfeed : s'.feed = s.feed) (hknown : ∀ x, s'.Known x → s.Known x)
    (hread : ∀ x, .read x ∈ s'.flight ↔ .read x ∈ s.flight)
    (hdeliver : ∀ x, .deliver x ∈ s'.flight ↔ .deliver x ∈ s.flight)
    (hedit : ∀ b x, .edit b x ∈ s'.flight ↔ .edit b x ∈ s.flight) : s'.Kept := by
  intro x hx
  rw [hmember, hfeed, hread, hdeliver, hedit, hedit]
  exact h x (hknown x hx)

/-- The requests of the subscriber are not needed to know an item. -/
private theorem Sound.known_frame {s s' : FanOut ι} (h : s.Sound) (hposted : s'.posted = s.posted)
    (hmem : ∀ ρ : Role ι, ρ.ofSubscriber = false → (ρ ∈ s'.flight ↔ ρ ∈ s.flight)) :
    ∀ x, .read x ∈ s'.flight ∨ .deliver x ∈ s'.flight → s'.Known x := by
  intro x hx
  rw [Known, hposted, hmem (.post x) rfl]
  rw [hmem (.read x) rfl, hmem (.deliver x) rfl] at hx
  exact h.known x hx

/-- A step that leaves the chain alone and adds no edit keeps the phase if it
keeps the promises to the subscriber. -/
private theorem Phase.frame {s s' : FanOut ι} (h : s.Phase) (hchain : s'.chain = s.chain)
    (hnote : s'.note = s.note) (hmember : s'.member = s.member)
    (hedit : ∀ b x, .edit b x ∈ s'.flight → .edit b x ∈ s.flight)
    (hkept : (∀ x, .edit (!s.member) x ∉ s.flight) → s.Kept → s'.Kept) : s'.Phase := by
  cases h with
  | resting hc hn he hk =>
    refine .resting (hchain.trans hc) (by rw [hnote, hmember, hn]) ?_ (hkept he hk)
    rw [hmember]
    exact fun x hx => he x (hedit _ x hx)
  | noting b hc hn he hk =>
    exact .noting b (hchain.trans hc) (by rw [hnote, hmember, hn])
      (fun b x hx => he b x (hedit b x hx)) (hkept (fun x => he _ x) hk)
  | enrolling b hc hn he hk =>
    exact .enrolling b (hchain.trans hc) (by rw [hnote, hn])
      (fun b x hx => he b x (hedit b x hx)) (hkept (fun x => he _ x) hk)
  | listing b hc hn hm he =>
    exact .listing b (hchain.trans hc) (by rw [hnote, hn]) (by rw [hmember, hm])
      (fun b x hx => he b x (hedit b x hx))

theorem Sound.publish {s : FanOut ι} {x : ι} (h : s.Sound) (hx : ¬ s.Known x)
    (hfeed : ¬ s.feed x) : Sound { s with flight := s.flight ++ [.post x, .read x] } := by
  -- the item is new, so nothing under way is about it
  have hdel : .deliver x ∉ s.flight := fun hd => hx (h.known x (Or.inr hd))
  refine ⟨?_, ?_, ?_⟩
  · intro y hy
    have := h.known y
    simp only [Known, List.mem_append, List.mem_cons, List.not_mem_nil, or_false] at hy this ⊢
    grind
  · intro b y hy
    refine h.listed b y ?_
    simpa using hy
  · refine h.phase.frame ?_ rfl rfl ?_ ?_
    · simp [chain, Role.ofChain]
    · intro b y hy
      simpa using hy
    · -- a member is promised the new item by its read
      intro _ hk y hy
      have := hk y
      simp only [Known, List.mem_append, List.mem_cons, List.not_mem_nil, or_false] at hy this ⊢
      grind

/-- An answer other than of a `post` leaves the items known and listed. -/
private theorem Sound.taken {s : FanOut ι} {ρ : Role ι} {pre rest : List (Role ι)}
    {feed : ι → Prop} (h : s.Sound) (hs : s.flight = pre ++ ρ :: rest) (hρ : ∀ x, .post x ≠ ρ)
    (hphase : Phase { s with feed := feed, flight := pre ++ rest }) :
    Sound { s with feed := feed, flight := pre ++ rest } := by
  have hold := mem_of_taken hs
  refine ⟨fun y hy => ?_, fun b y hy => h.listed b y (hold _ hy), hphase⟩
  exact (h.known y (hy.imp (hold _) (hold _))).imp id (mem_taken hs _ (hρ y)).mpr

theorem Sound.post {s : FanOut ι} {x : ι} {pre rest : List (Role ι)} {posted : ι → Prop}
    (h : s.Sound) (hs : s.flight = pre ++ .post x :: rest)
    (hposted : ∀ y, posted y ↔ s.posted y ∨ y = x) :
    Sound { s with posted := posted, flight := pre ++ rest } := by
  have hknown : ∀ y, posted y ∨ .post y ∈ pre ++ rest ↔ s.Known y := by
    intro y
    simp only [Known, hs, hposted, List.mem_append, List.mem_cons]
    grind
  have hmem := mem_taken hs
  refine ⟨?_, ?_, ?_⟩
  · intro y hy
    refine (hknown y).mpr (h.known y ?_)
    exact hy.imp (hmem _ (by simp)).mp (hmem _ (by simp)).mp
  · intro b y hy
    exact (hposted y).mpr (Or.inl (h.listed b y ((hmem _ (by simp)).mp hy)))
  · refine h.phase.frame (chain_taken hs rfl) rfl rfl ?_ ?_
    · exact fun b y => (hmem _ (by simp)).mp
    · exact fun _ hk => hk.congr rfl rfl (fun y => (hknown y).mp) (fun _ => hmem _ (by simp))
        (fun _ => hmem _ (by simp)) (fun _ _ => hmem _ (by simp))

theorem Sound.subscribe {s : FanOut ι} {b : Bool} (h : s.Sound)
    (hidle : ∀ ρ ∈ s.flight, ρ.ofSubscriber = false) :
    Sound { s with flight := s.flight ++ [.note b] } := by
  have hmem : ∀ ρ : Role ι, ρ ≠ .note b → (ρ ∈ s.flight ++ [.note b] ↔ ρ ∈ s.flight) := by
    intro ρ hρ
    simp [hρ]
  have hedit : s.NoEdit := fun b' x hx => absurd (hidle _ hx) (by simp [Role.ofSubscriber])
  have hchain : s.chain = [] := by
    refine List.filter_eq_nil_iff.mpr fun ρ hρ hc => ?_
    have := hidle ρ hρ
    cases ρ <;> simp_all [Role.ofSubscriber, Role.ofChain]
  -- nothing of an earlier change is under way, so the subscriber is resting
  have hresting : s.note = s.member ∧ s.Kept := by
    cases h.phase with
    | resting _ hn _ hk => exact ⟨hn, hk⟩
    | noting b hc => rw [hchain] at hc; cases hc
    | enrolling b hc => rw [hchain] at hc; cases hc
    | listing b hc => rw [hchain] at hc; cases hc
  obtain ⟨hnote, hkept⟩ := hresting
  refine ⟨?_, ?_, .noting b ?_ hnote ?_ ?_⟩
  · refine h.known_frame rfl fun ρ hρ => hmem ρ fun e => ?_
    rw [e] at hρ
    cases hρ
  · exact fun b' y hy => h.listed b' y ((hmem _ (by simp)).mp hy)
  · rw [chain, List.filter_append]
    show s.chain ++ [Role.note b] = [.note b]
    rw [hchain, List.nil_append]
  · exact fun b' y hy => hedit b' y ((hmem _ (by simp)).mp hy)
  · exact hkept.congr rfl rfl (fun y hy => hy.imp id (hmem _ (by simp)).mp)
      (fun _ => hmem _ (by simp)) (fun _ => hmem _ (by simp)) (fun _ _ => hmem _ (by simp))

theorem Sound.read {s : FanOut ι} {x : ι} {pre rest found : List (Role ι)} (h : s.Sound)
    (hs : s.flight = pre ++ .read x :: rest)
    (hfound : ∀ ρ, ρ ∈ found ↔ ρ = .deliver x ∧ s.member = true) :
    Sound { s with flight := pre ++ rest ++ found } := by
  have hread : .read x ∈ s.flight := by rw [hs]; simp
  have hold : ∀ ρ : Role ι, ρ ∈ pre ++ rest ++ found →
      ρ ∈ s.flight ∨ ρ = .deliver x ∧ s.member = true := by
    intro ρ hρ
    rw [List.mem_append, hfound] at hρ
    rw [hs]
    simp only [List.mem_append, List.mem_cons] at hρ ⊢
    tauto
  have hmem : ∀ ρ : Role ι, ρ ≠ .read x → ρ ≠ .deliver x →
      (ρ ∈ pre ++ rest ++ found ↔ ρ ∈ s.flight) := by
    intro ρ hr hd
    rw [List.mem_append, hfound, hs]
    simp [hr, hd]
  refine ⟨?_, ?_, ?_⟩
  · intro y hy
    refine Or.imp id (hmem _ (by simp) (by simp)).mpr ?_
    rcases hy with hy | hy
    · exact h.known y (Or.inl ((hold _ hy).resolve_right (by simp)))
    · rcases hold _ hy with hy | ⟨hyx, -⟩
      · exact h.known y (Or.inr hy)
      · cases hyx
        exact h.known x (Or.inl hread)
  · exact fun b y hy => h.listed b y ((hmem _ (by simp) (by simp)).mp hy)
  · refine h.phase.frame ?_ rfl rfl (fun b y => (hmem _ (by simp) (by simp)).mp) ?_
    · rw [chain, chain, hs]
      exact filter_answer (ρ := Role.read x) pre rest found rfl fun σ hσ => by
        rw [((hfound σ).mp hσ).1]
        rfl
    · intro _ hk y hy
      obtain ⟨hin, hout⟩ := hk y (hy.imp id (hmem _ (by simp) (by simp)).mp)
      rw [hmem (.edit true y) (by simp) (by simp), hmem (.edit false y) (by simp) (by simp)]
      refine ⟨fun hm => ?_, fun hm => ?_⟩
      · by_cases hyx : y = x
        · -- the read of a member turns into a delivery
          subst hyx
          exact Or.inr (Or.inr (Or.inl (List.mem_append_right _ ((hfound _).mpr ⟨rfl, hm⟩))))
        · rw [hmem (.read y) (by simpa using hyx) (by simp),
            hmem (.deliver y) (by simp) (by simpa using hyx)]
          exact hin hm
      · have hm : s.member = false := hm
        obtain ⟨hd, he⟩ := hout hm
        refine ⟨fun hd' => ?_, he⟩
        rcases hold _ hd' with h' | ⟨-, hmt⟩
        · exact hd h'
        · rw [hm] at hmt
          cases hmt

theorem Sound.deliver {s : FanOut ι} {x : ι} {pre rest : List (Role ι)} {feed : ι → Prop}
    (h : s.Sound) (hs : s.flight = pre ++ .deliver x :: rest)
    (hfeed : ∀ y, feed y ↔ s.feed y ∨ y = x) :
    Sound { s with feed := feed, flight := pre ++ rest } := by
  have hdeliver : .deliver x ∈ s.flight := by rw [hs]; simp
  have hmem := mem_taken hs
  have hold := mem_of_taken hs
  refine h.taken hs nofun (h.phase.frame (chain_taken hs rfl) rfl rfl (fun b y => hold _) ?_)
  intro _ hk y hy
  obtain ⟨hin, -⟩ := hk y (hy.imp id (hold _))
  refine ⟨fun hm => ?_, fun hm => ?_⟩
  · show _ ∨ feed y ∨ _
    rw [hfeed y, hmem (.read y) (by simp), hmem (.edit true y) (by simp)]
    by_cases hyx : y = x
    · exact Or.inr (Or.inl (Or.inr hyx))
    · rw [hmem (.deliver y) (by simpa using hyx)]
      have := hin hm
      tauto
  · -- who is no member has no delivery under way
    exact absurd hdeliver ((hk x (h.known x (Or.inr hdeliver))).2 hm).1

theorem Sound.note {s : FanOut ι} {b : Bool} {pre rest : List (Role ι)} (h : s.Sound)
    (hs : s.flight = pre ++ .note b :: rest) :
    Sound { s with note := b, flight := pre ++ rest ++ [.enrol b] } := by
  have hmem := mem_chained (τ := .enrol b) hs rfl rfl
  refine ⟨?_, ?_, ?_⟩
  · exact h.known_frame rfl fun ρ hρ => hmem ρ (Role.ofChain_of_ofSubscriber hρ)
  · exact fun b' y hy => h.listed b' y ((hmem _ rfl).mp hy)
  · have hchain := h.phase.chain_eq hs rfl
    cases h.phase with
    | noting b' hc hn he hk =>
      -- the answered note was the only chained request; the enrolment follows it
      refine .enrolling b (chain_answered hs rfl hchain [.enrol b]) rfl
        (fun b' y hy => he b' y ((hmem _ rfl).mp hy)) ?_
      exact hk.congr rfl rfl (fun y hy => hy.imp id (hmem _ rfl).mp) (fun _ => hmem _ rfl)
        (fun _ => hmem _ rfl) (fun _ _ => hmem _ rfl)
    | resting hc | enrolling _ hc | listing _ hc => rw [hchain] at hc; cases hc

theorem Sound.enrol {s : FanOut ι} {b : Bool} {pre rest : List (Role ι)} (h : s.Sound)
    (hs : s.flight = pre ++ .enrol b :: rest) :
    Sound { s with member := b, flight := pre ++ rest ++ [.list b] } := by
  have hmem := mem_chained (τ := .list b) hs rfl rfl
  refine ⟨?_, ?_, ?_⟩
  · exact h.known_frame rfl fun ρ hρ => hmem ρ (Role.ofChain_of_ofSubscriber hρ)
  · exact fun b' y hy => h.listed b' y ((hmem _ rfl).mp hy)
  · have hchain := h.phase.chain_eq hs rfl
    cases h.phase with
    | enrolling b' hc hn he hk =>
      obtain rfl : b' = b := by
        rw [hchain] at hc
        cases hc
        rfl
      -- from here on the promises are those of the new membership, and the
      -- listing has yet to make them good
      exact .listing b' (chain_answered hs rfl hchain [.list b']) hn rfl fun b y hy =>
        he b y ((hmem _ rfl).mp hy)
    | resting hc | noting _ hc | listing _ hc => rw [hchain] at hc; cases hc

theorem Sound.list {s : FanOut ι} {b : Bool} {pre rest : List (Role ι)} {items : List ι}
    (h : s.Sound) (hs : s.flight = pre ++ .list b :: rest)
    (hitems : ∀ x, x ∈ items ↔ s.posted x) (hcalm : s.Calm b) :
    Sound { s with flight := pre ++ rest ++ items.map (.edit b) } := by
  have hmem : ∀ ρ : Role ι, ρ.ofSubscriber = false →
      (ρ ∈ pre ++ rest ++ items.map (.edit b) ↔ ρ ∈ s.flight) := by
    intro ρ hρ
    rw [hs]
    cases ρ <;> simp_all [Role.ofSubscriber, Role.ofChain]
  have hedit : ∀ b' y, .edit b' y ∈ pre ++ rest ++ items.map (.edit b) ↔
      .edit b' y ∈ s.flight ∨ b' = b ∧ s.posted y := by
    intro b' y
    rw [hs, ← hitems]
    simp only [List.mem_append, List.mem_map, List.mem_cons]
    grind
  refine ⟨?_, ?_, ?_⟩
  · exact h.known_frame rfl hmem
  · exact fun b' y hy => ((hedit b' y).mp hy).elim (h.listed b' y) And.right
  · have hchain := h.phase.chain_eq hs rfl
    cases h.phase with
    | resting hc | noting _ hc | enrolling _ hc => rw [hchain] at hc; cases hc
    | listing b' hc hn hm he =>
      obtain rfl : b = b' := by
        rw [hchain] at hc
        cases hc
        rfl
      refine .resting ?_ (hn.trans hm.symm) ?_ ?_
      · refine (chain_answered hs rfl hchain (items.map (.edit b))).trans ?_
        exact List.filter_eq_nil_iff.mpr fun σ hσ => by
          obtain ⟨y, -, rfl⟩ := List.mem_map.mp hσ
          simp [Role.ofChain]
      · intro y hy
        rcases (hedit _ y).mp hy with hy | ⟨hb, -⟩
        · exact he _ y hy
        · simp [hm] at hb
      · -- an item already stored is edited now; for the others the state is calm
        intro y hy
        refine ⟨fun hmt => ?_, fun hmf => ?_⟩
        · obtain rfl : b = true := hm.symm.trans hmt
          rw [hmem (.read y) rfl, hmem (.deliver y) rfl, hedit]
          rcases hy with hy | hy
          · exact Or.inr (Or.inr (Or.inr (Or.inr ⟨rfl, hy⟩)))
          · have := hcalm y ((hmem _ rfl).mp hy)
            tauto
        · obtain rfl : b = false := hm.symm.trans hmf
          obtain ⟨hd, hp⟩ := hcalm y
          rw [hmem (.deliver y) rfl, hedit]
          refine ⟨hd, fun hf => Or.inr ⟨rfl, ?_⟩⟩
          exact hy.resolve_right fun hpost => hp ((hmem _ rfl).mp hpost) hf

theorem Sound.edit {s : FanOut ι} {b : Bool} {x : ι} {pre rest : List (Role ι)} {feed : ι → Prop}
    (h : s.Sound) (hs : s.flight = pre ++ .edit b x :: rest)
    (hfeed : ∀ y, feed y ↔ y = x ∧ b = true ∨ y ≠ x ∧ s.feed y) :
    Sound { s with feed := feed, flight := pre ++ rest } := by
  have hedit : .edit b x ∈ s.flight := by rw [hs]; simp
  have hmem := mem_taken hs
  have hold := mem_of_taken hs
  refine h.taken hs nofun (h.phase.frame (chain_taken hs rfl) rfl rfl (fun b y => hold _) ?_)
  intro hopp hk y hy
  -- an edit under way goes the way of the last change
  have hb : b = s.member := by
    have := hopp x
    cases b <;> cases hm : s.member <;> simp_all
  obtain ⟨hin, hout⟩ := hk y (hy.imp id (hold _))
  rw [hmem (.read y) (by simp), hmem (.deliver y) (by simp)]
  show (_ → _ ∨ feed y ∨ _) ∧ (_ → _ ∧ (feed y → _))
  rw [hfeed y]
  by_cases hyx : y = x
  · subst hyx
    refine ⟨fun hm => ?_, fun hm => ⟨(hout hm).1, fun hf => ?_⟩⟩
    · exact Or.inr (Or.inl (Or.inl ⟨rfl, hb.trans hm⟩))
    · have hm : s.member = false := hm
      simp [hb, hm] at hf
  · rw [hmem (.edit true y) (by simp [hyx]), hmem (.edit false y) (by simp [hyx])]
    refine ⟨fun hm => ?_, fun hm => ⟨(hout hm).1, fun hf => ?_⟩⟩
    · have := hin hm
      tauto
    · exact (hout hm).2 (by tauto)

theorem Sound.elsewhere {s : FanOut ι} {feed : ι → Prop} (h : s.Sound)
    (hfeed : ∀ x, s.Known x → (feed x ↔ s.feed x)) : Sound { s with feed := feed } := by
  refine ⟨h.known, h.listed, h.phase.frame rfl rfl rfl (fun _ _ => id) fun _ hk y hy => ?_⟩
  show (_ → _ ∨ feed y ∨ _) ∧ (_ → _ ∧ (feed y → _))
  rw [hfeed y hy]
  exact hk y hy

/-- Every step keeps the invariant. -/
theorem Sound.step {s s' : FanOut ι} (h : s.Sound) (hstep : Step s s') : s'.Sound := by
  cases hstep with
  | publish hx hfeed => exact h.publish hx hfeed
  | subscribe hidle => exact h.subscribe hidle
  | post hs hposted => exact h.post hs hposted
  | read hs hfound => exact h.read hs hfound
  | deliver hs hfeed => exact h.deliver hs hfeed
  | note hs => exact h.note hs
  | enrol hs => exact h.enrol hs
  | list hs hitems hcalm => exact h.list hs hitems hcalm
  | edit hs hfeed => exact h.edit hs hfeed
  | elsewhere hfeed => exact h.elsewhere hfeed

/-- A state in which nothing is under way and the join holds. -/
theorem Sound.start {s : FanOut ι} (hquiet : s.flight = []) (hnote : s.note = s.member)
    (hjoin : ∀ x, s.posted x → (s.feed x ↔ s.member = true)) : s.Sound := by
  have hnone : ∀ ρ : Role ι, ρ ∉ s.flight := fun ρ => by rw [hquiet]; exact List.not_mem_nil
  refine ⟨?_, ?_, .resting ?_ hnote (fun x => hnone _) ?_⟩
  · exact fun x hx => absurd hx (by simp [hnone])
  · exact fun b x hx => absurd hx (hnone _)
  · rw [chain, hquiet]
    rfl
  · intro x hx
    have hx := hjoin x (hx.resolve_right (hnone _))
    refine ⟨fun hm => Or.inr (Or.inl (hx.mpr hm)), fun hm => ⟨hnone _, fun hf => ?_⟩⟩
    rw [hx, hm] at hf
    cases hf

end FanOut

end Toontagram.Lib
