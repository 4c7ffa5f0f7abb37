import Toontagram.Feed.View

/-!
# The feed is the join of fans and cartoons

`user-feed` of a user should hold the cartoons of the authors the user is a
fan of, and the user's own. Two theorems say when it does, both read off the
simulation in `Feed/View.lean`:

- `joined_of_sequential`: in a run in which every action is finished before the
  next one starts, for all users at once.
- `joined_of_orderly`: for one follower and one author in any run whose events
  are orderly for the two, with any other taps, uploads, likes and edits.

`joined_race` is a run without errors after which a fan's feed lacks a cartoon:
the upload reads the fans before the follow is among them, and the follow
lists the cartoons before the upload is among them.
-/

namespace Toontagram

open Lib (Role run Along along_of_forall run_inv_along)

namespace Net

/-- The star document of `v` for `a` and the fan document of `a` for `v` agree,
and the feed of `v` holds a cartoon of `a` exactly when `v` is a fan. -/
structure Joined (s : Firestore) (v a : Uid) : Prop where
  pair : s.has ⟨.userStar v, a⟩ = s.has ⟨.userFan a, v⟩
  feed : ∀ x, author s x = some (.string a) →
    s.has ⟨.userFeed v, x⟩ = s.has ⟨.userFan a, v⟩

/-- The invariant of one pair in a run from the store `s`. -/
structure Follows (s : Firestore) (v a : Uid) (n : Net) : Prop where
  coherent : n.Coherent
  fed : n.FedFrom s
  sound : (n.view v a).Sound

/-- An event without error that is orderly for the pair. -/
def orderlyAnswered (v a : Uid) (n : Net) (e : Event) : Bool := Answered e && n.orderly v a e

theorem Follows.step {s : Firestore} {v a : Uid} {n n' : Net} {e : Event} (h : Follows s v a n)
    (hok : orderlyAnswered v a n e = true) (hun : unused s v e = true)
    (hstep : n.step e = some n') : Follows s v a n' := by
  obtain ⟨hans, hord⟩ := Bool.and_eq_true_iff.mp hok
  refine ⟨h.coherent.step hans hstep, h.fed.step h.coherent hans hstep, h.sound.step ?_⟩
  cases e with
  | act o => exact view_step_act h.coherent h.fed hun hord hstep
  | answer i r => exact view_step_answer h.coherent hans hord hstep

theorem Follows.opened {v a : Uid} {s : Firestore} (hva : v ≠ a) (h : Joined s v a) :
    Follows s v a (opened s) := by
  refine ⟨coherent_opened s, fedFrom_opened s, .start rfl ?_ fun x hx => ?_⟩
  · simpa [view, hva, Net.opened] using h.pair
  · have hfeed : s.has ⟨.userFeed v, x⟩ = s.has ⟨.userFan a, v⟩ := h.feed x hx
    simp [view, hva, Net.opened, hfeed]

theorem Follows.joined {s : Firestore} {v a : Uid} {n : Net} (hva : v ≠ a) (h : Follows s v a n)
    (hquiet : n.Quiet) : Joined n.state.store v a := by
  obtain ⟨hnote, hfeed⟩ := h.sound.join (by simp [view, show n.inflight = [] from hquiet])
  refine ⟨by simpa [view, hva] using hnote, fun x hx => ?_⟩
  rw [Bool.eq_iff_iff]
  simpa [view, hva] using hfeed x hx

/-- Follows, unfollows and uploads may interleave in every way that is orderly
for the two: once nothing is in flight the feed is the join again. -/
theorem joined_of_orderly {v a : Uid} {s : Firestore} {es : List Event} {n : Net} (hva : v ≠ a)
    (hs : Joined s v a) (hun : ∀ e ∈ es, unused s v e = true)
    (hrun : run Net.step (opened s) es = some n)
    (hok : Along Net.step (fun n e => orderlyAnswered v a n e = true) (opened s) es)
    (hquiet : n.Quiet) : Joined n.state.store v a := by
  have halong := hok.and (along_of_forall (fun e he _ => hun e he) (opened s))
  have hfollows : Follows s v a n :=
    run_inv_along (fun _ _ _ h hok hstep => h.step hok.1 hok.2 hstep) es
      (Follows.opened hva hs) halong hrun
  exact hfollows.joined hva hquiet

/-! ### Runs of one author and its readers -/

/-- An account whose profile document has no other fields. -/
def account (uid : Uid) (fan : Bool) : User :=
  { User.init (.ofList [("uid", .string uid)]) with fan := fan }

/-- An upload without pictures. -/
def upload (ref : DocID) : CartoonService.Upload where
  title := ref
  caption := ""
  type := "DAILY"
  user := account "author" false
  url := Vector.replicate 5 ""
  now := ⟨0, 0⟩
  ref := ref

/-- The `i`-th call in flight is answered without error. -/
def success (i : Nat) : Event := .answer i ⟨true, ⟨"feedback", ⟨0, 0⟩⟩⟩

/-- A tap of the reader on the profile of the author, `fan` being what it shows. -/
def tapAuthor (fan : Bool) : Event :=
  .act (.didTapButton (some "reader") (some (account "reader" false)) 0 (account "author" fan))

def uploadByAuthor (ref : DocID) : Event := .act (.uploadCartoon (some "author") (upload ref))

/-- The reader follows while an upload is under way; the upload reads the fans
after the reader is among them. -/
def overlap : List Event :=
  [uploadByAuthor "c", tapAuthor false, success 2, success 2, success 3, success 1,
   success 0, success 0, success 0, success 0]

theorem joined_of_orderly_overlap :
    ∃ n, run Net.step (opened ∅) overlap = some n ∧ Joined n.state.store "reader" "author" ∧
      n.state.store.has ⟨.userFeed "reader", "c"⟩ = true := by
  have hrun : run Net.step (opened ∅) overlap =
      some ((run Net.step (opened ∅) overlap).get (by decide)) := (Option.some_get _).symm
  have hjoined : Joined ∅ "reader" "author" := ⟨rfl, fun _ h => by cases h⟩
  exact ⟨_, hrun,
    joined_of_orderly (by decide) hjoined (by decide) hrun (by decide) (by decide), by decide⟩

/-- An event of a run in which `a` uploads and others follow and unfollow `a`. -/
def concerns (a : Uid) : Event → Bool
  | .act (.uploadCartoon (some b) _) => b = a
  | .act (.didTapButton (some me) _ _ user) => me ≠ a && user.uid = a
  | .act _ => false
  | .answer _ _ => true

/-- The author uploads and the fans are read; the reader follows, and the
cartoons are listed; only then the cartoon is stored. -/
def race : List Event :=
  [uploadByAuthor "c", success 1, tapAuthor false, success 2, success 2, success 3,
   success 0, success 0, success 0]

/-- After the race a fan's feed lacks a cartoon. -/
theorem joined_race :
    ¬ ∀ (a : Uid) (es : List Event) (n : Net), run Net.step (opened ∅) es = some n →
      (∀ e ∈ es, Answered e = true ∧ concerns a e = true) → n.Quiet →
      ∀ v, v ≠ a → ∀ c, author n.state.store c = some (.string a) →
        (n.state.store.has ⟨.userFeed v, c⟩ = true ↔ n.state.store.has ⟨.userFan a, v⟩ = true) := by
  intro h
  have := h "author" race ((run Net.step (opened ∅) race).get (by decide)) (Option.some_get _).symm
    (by decide) (by decide) "reader" (by decide) "c" (by decide)
  revert this
  decide

/-! ## One action after the other -/

/-- Actions are taken only when nothing is in flight, and no answer is an error. -/
def sequential (n : Net) : Event → Bool
  | .act _ => n.inflight.isEmpty
  | .answer _ r => r.ok

/-- All calls in flight stem from one action. -/
def OneOrigin (n : Net) : Prop := ∃ o, ∀ p ∈ n.inflight, p.origin = o

def isTap : Action → Bool
  | .didTapButton .. => true
  | _ => false

/-- The calls of a tap are the subscriber's, those of an upload the publisher's. -/
theorem ofSubscriber_of_role {v a : Uid} {p : Pending} {ρ : Role DocID}
    (h : p.role v a = some ρ) : ρ.ofSubscriber = isTap p.origin := by
  unfold Pending.role at h
  split at h
  next ho =>
    rw [ho]
    split at h
    next =>
      split at h
      next w _ _ =>
        obtain ⟨_, _, h⟩ := Option.bind_eq_some_iff.mp h
        unfold Tap.roleOf at h
        split at h <;> cases h <;> rfl
      next => cases h; rfl
      next => cases h
    next => cases h
  next ho =>
    rw [ho]
    split at h
    next =>
      split at h
      next =>
        obtain ⟨_, _, h⟩ := Option.bind_eq_some_iff.mp h
        unfold CartoonService.Upload.roleOf at h
        split at h
        next => cases h; rfl
        next =>
          split at h
          next => cases h; rfl
          next => cases h
        next => cases h
      next => cases h; rfl
      next => cases h
    next => cases h
  next => cases h

/-- When one action runs alone, every event is orderly for every pair. -/
theorem orderly_of_sequential {n : Net} {e : Event} (hone : n.OneOrigin)
    (hseq : n.sequential e = true) (v a : Uid) : orderlyAnswered v a n e = true := by
  rw [orderlyAnswered, Bool.and_eq_true]
  cases e with
  | act o =>
    have hempty : n.inflight = [] := List.isEmpty_iff.mp hseq
    refine ⟨rfl, ?_⟩
    unfold orderly
    split
    next => simp [idle, hempty]
    next => rfl
    next h => cases h
  | answer i r =>
    refine ⟨hseq, ?_⟩
    unfold orderly
    split
    next h => cases h
    next h => cases h
    next i' r' he =>
      cases he
      split
      next b hb =>
        -- a tap is being answered, so nothing in flight belongs to an upload
        obtain ⟨p, hp, hrole⟩ := Option.bind_eq_some_iff.mp hb
        obtain ⟨o, ho⟩ := hone
        have htap : isTap o = true := by
          rw [← ho p (List.mem_of_getElem? hp), ← ofSubscriber_of_role hrole]
          rfl
        refine List.all_eq_true.mpr fun ρ hρ => ?_
        obtain ⟨q, hq, hrole'⟩ := List.mem_filterMap.mp hρ
        have hsub : ρ.ofSubscriber = true := by
          rw [ofSubscriber_of_role hrole', ho q hq, htap]
        cases ρ <;> first | rfl | cases hsub
      next => rfl

theorem OneOrigin.step {n n' : Net} {e : Event} (h : n.OneOrigin) (hseq : n.sequential e = true)
    (hstep : n.step e = some n') : n'.OneOrigin := by
  cases e with
  | act o =>
    obtain ⟨-, rfl⟩ := step_act hstep
    refine ⟨o, fun p hp => ?_⟩
    have hempty : n.inflight = [] := List.isEmpty_iff.mp hseq
    rcases List.mem_append.mp hp with hp | hp
    · rw [hempty] at hp
      cases hp
    · obtain ⟨k, -, rfl⟩ := List.mem_map.mp hp
      rfl
  | answer i r =>
    obtain ⟨o, ho⟩ := h
    obtain ⟨pre, p, post, hin, -, rfl⟩ := step_answer hstep
    refine ⟨o, fun q hq => ?_⟩
    rcases mem_answered hin hq with hq | ⟨k, -, rfl⟩
    · exact ho q hq
    · exact ho p (by rw [hin]; simp)

/-- Nobody is a fan of himself. -/
def NoSelf (n : Net) : Prop :=
  ∀ v, n.state.store.has ⟨.userStar v, v⟩ = false ∧ n.state.store.has ⟨.userFan v, v⟩ = false

theorem NoSelf.step {n n' : Net} {e : Event} (h : n.NoSelf) (hstem : n.Stemmed)
    (hok : Answered e = true) (hstep : n.step e = some n') : n'.NoSelf := by
  cases e with
  | act o =>
    obtain ⟨-, rfl⟩ := step_act hstep
    exact h
  | answer i r =>
    obtain ⟨pre, p, post, hin, -, rfl⟩ := step_answer hstep
    have hp := hstem p (by rw [hin]; simp)
    intro v
    rw [Pending.exec_store, Call.has_exec_ok _ hok, Call.has_exec_ok _ hok]
    refine ⟨?_, ?_⟩
    · cases hl : p.call.leavesAt ⟨.userStar v, v⟩ with
      | none => exact (h v).1
      | some b =>
        obtain ⟨t, -, -, hme, huser, -⟩ := hp.leavesAt_star hl
        exact absurd (hme.trans huser.symm) t.other
    · cases hl : p.call.leavesAt ⟨.userFan v, v⟩ with
      | none => exact (h v).2
      | some b =>
        obtain ⟨t, -, -, hme, huser, -⟩ := hp.leavesAt_fan hl
        exact absurd (hme.trans huser.symm) t.other

/-- The empty store has no feeds. -/
theorem unused_empty (v : Uid) (e : Event) : unused ∅ v e = true := by
  unfold unused
  split <;> rfl

/-- The invariant of a sequential run. -/
structure Sequential (n : Net) : Prop where
  follows : ∀ v a, Follows ∅ v a n
  one : n.OneOrigin
  noSelf : n.NoSelf

theorem Sequential.step {n n' : Net} {e : Event} (h : n.Sequential)
    (hseq : n.sequential e = true) (hstep : n.step e = some n') : n'.Sequential := by
  have hok := orderly_of_sequential h.one hseq
  refine ⟨fun v a => (h.follows v a).step (hok v a) (unused_empty v e) hstep,
    h.one.step hseq hstep, ?_⟩
  exact h.noSelf.step (h.follows "" "").coherent.stemmed
    (Bool.and_eq_true_iff.mp (hok "" "")).1 hstep

theorem Sequential.opened : (opened ∅).Sequential := by
  refine ⟨fun v a => ⟨coherent_opened ∅, fedFrom_opened ∅, .start rfl ?_ fun x hx => by cases hx⟩,
    ⟨.editCartoon none "" "" "" "", fun p hp => by cases hp⟩, fun v => ⟨rfl, rfl⟩⟩
  rfl

/-- From an empty store, whatever is uploaded, followed, unfollowed, liked and
edited, one action after the other: every feed holds exactly the user's own
cartoons and those of the authors the user is a fan of, and stars are fans. -/
theorem joined_of_sequential {es : List Event} {n : Net}
    (hrun : run Net.step (opened ∅) es = some n)
    (hseq : Along Net.step (fun n e => n.sequential e = true) (opened ∅) es) (hquiet : n.Quiet) :
    (∀ u a c, author n.state.store c = some (.string a) →
      (n.state.store.has ⟨.userFeed u, c⟩ = true ↔
        u = a ∨ n.state.store.has ⟨.userFan a, u⟩ = true)) ∧
    ∀ u a, n.state.store.has ⟨.userStar u, a⟩ = true ↔
      n.state.store.has ⟨.userFan a, u⟩ = true := by
  have hinv : n.Sequential :=
    run_inv_along (fun _ _ _ h hok hstep => h.step hok hstep) es Sequential.opened hseq hrun
  refine ⟨fun u a c hc => ?_, fun u a => ?_⟩
  · -- the view counts an author as its own member
    have := ((hinv.follows u a).sound.join
      (by simp [view, show n.inflight = [] from hquiet])).2 c hc
    simpa [view] using this
  · by_cases hua : u = a
    · subst hua
      rw [(hinv.noSelf u).1, (hinv.noSelf u).2]
    · rw [((hinv.follows u a).joined hua hquiet).pair]

/-- A cartoon, a follow, a second cartoon and an edit. -/
def day : List Event :=
  [uploadByAuthor "c", success 0, success 0, success 0,
   tapAuthor false, success 0, success 0, success 0, success 0, success 0,
   uploadByAuthor "d", success 0, success 0, success 0, success 0,
   .act (.editCartoon (some "author") "ACTION" "c" "title" ""), success 0, success 0]

theorem joined_of_sequential_day :
    ∃ n, run Net.step (opened ∅) day = some n ∧
      author n.state.store "d" = some (.string "author") ∧
      (n.state.store.has ⟨.userFeed "reader", "d"⟩ = true ↔
        "reader" = "author" ∨ n.state.store.has ⟨.userFan "author", "reader"⟩ = true) ∧
      n.state.store.has ⟨.userFan "author", "reader"⟩ = true := by
  have hrun : run Net.step (opened ∅) day = some ((run Net.step (opened ∅) day).get (by decide)) :=
    (Option.some_get _).symm
  have hjoined := joined_of_sequential hrun (by decide) (by decide)
  exact ⟨_, hrun, by decide, hjoined.1 "reader" "author" "d" (by decide), by decide⟩

end Net

end Toontagram
