import Toontagram.Api.World

/-!
# What an action leaves in flight

An action issues calls, their closures issue further calls, and so on. `Stems`
lists every call that can be in flight on account of an action, so that a
fact about the calls in flight is a case analysis with nine cases and never
unfolds a service:

- a tap on the follow button of a foreign profile (`Tap`) writes the star, then
  the fan, then asks for the cartoons of the profile and edits the own feed
  for each of them;
- an upload writes the cartoon and asks for the author's fans, and writes the
  feed of each of them and of the author;
- everything else writes documents no feed depends on (`Write.Aside`).

`Tap.star_exec` to `deliver_exec` say what each of these calls does when it is
answered without error, and `Net.step_stemmed` that nothing else gets in flight.
-/

namespace Toontagram

open Lib (DocWrite)

/-! ## The calls of a tap and of an upload -/

/-- A tap on the button of the profile of another user. -/
structure Tap where
  me : Uid
  currentUser : User
  vc : ProfileID
  user : User
  other : me ≠ user.uid

namespace Tap

variable (t : Tap)

def action : Action := .didTapButton (some t.me) (some t.currentUser) t.vc t.user

theorem action_inj {t t' : Tap} (h : t.action = t'.action) : t = t' := by
  obtain ⟨me, currentUser, vc, user, other⟩ := t
  obtain ⟨me', currentUser', vc', user', other'⟩ := t'
  cases h
  rfl

/-- Whether the tap follows the user or unfollows him. -/
def didFan : Bool := !t.user.fan

def completion : ScreenCompletion :=
  if t.user.fan then .antiFanned t.vc t.user else .fanned t.vc t.user t.currentUser

/-- The first write of `fanUsers` and of `antiFanUser`. -/
def star : Call :=
  ⟨some t.me, .write (.mark t.didFan ⟨.userStar t.me, t.user.uid⟩)
    (if t.user.fan then .antiFanUser t.user.uid t.me t.completion
      else .fanUsers t.user.uid t.me t.completion)⟩

/-- The second write of both. -/
def enrol : Call :=
  ⟨some t.me, .write (.mark t.didFan ⟨.userFan t.user.uid, t.me⟩) (.screen t.completion)⟩

/-- The query of `updateMainUserAfterFan`. -/
def list : Call :=
  ⟨some t.me, .getDocuments ⟨.cartoon, some ("uid", .string t.user.uid)⟩
    (.updateMainUserAfterFan t.me t.didFan)⟩

/-- The cartoons the query finds. -/
def found (s : Firestore) : List DocID :=
  ((⟨.cartoon, some ("uid", .string t.user.uid)⟩ : Query).documents s).map Prod.fst

/-- A write of the loop of `updateMainUserAfterFan`. -/
def feed (x : DocID) : Call :=
  ⟨some t.me, .write (.mark t.didFan ⟨.userFeed t.me, x⟩) (.screen .ignore)⟩

theorem calls_action : t.action.calls = [t.star] := by
  have hcurrent : t.user.currentUser (some t.me) = false := by simp [User.currentUser, t.other]
  cases hfan : t.user.fan <;>
    simp [action, Action.calls, header, hcurrent, hfan, UserService.antiFanUser,
      UserService.fanUsers, star, completion, didFan, DocWrite.mark]

end Tap

namespace CartoonService.Upload

variable (u : Upload) (a : Uid)

def action : Action := .uploadCartoon (some a) u

theorem action_inj {u u' : Upload} {a a' : Uid} (h : u.action a = u'.action a') :
    u = u' ∧ a = a' := by
  cases h
  exact ⟨rfl, rfl⟩

/-- The document `uploadCartoon` adds. -/
def post : Call := ⟨some a, .write (.setData ⟨.cartoon, u.ref⟩ (u.data a)) (.screen .ignore)⟩

/-- The query of `updateMainUserAfterCartoon`. -/
def read : Call :=
  ⟨some a, .getDocuments { collection := .userFan a } (.updateMainUserAfterCartoon a u.ref)⟩

/-- A write of the loop of `updateMainUserAfterCartoon`, or the one after it. -/
def deliver (v : Uid) : Call :=
  ⟨some a, .write (.mark true ⟨.userFeed v, u.ref⟩) (.screen .ignore)⟩

end CartoonService.Upload

open CartoonService (Upload)

/-! ## Writes no feed depends on -/

/-- A collection that holds no star, no fan, no feed and no cartoon. -/
def Collection.aside : Collection → Bool
  | .userLikes _ => true
  | .cartoonLikes _ => true
  | .userFeedback _ => true
  | .comments _ => true
  | _ => false

/-- A write outside the collections of the feed, or one that keeps the author
of a cartoon. -/
def AsideWrite : Write → Prop
  | .setData ref _ => ref.collection.aside = true
  | .delete ref => ref.collection.aside = true
  | .updateData ref fields => ref.collection = .cartoon ∧ fields "uid" = none

/-- The completions of the cartoon screen and the comment screen. -/
def ScreenCompletion.aside : ScreenCompletion → Bool
  | .ignore => true
  | .liked _ _ => true
  | .commented _ _ => true
  | _ => false

/-- Closures that write aside and nothing else. -/
def Completion.aside : Completion → Bool
  | .screen c => c.aside
  | .likeCartoon _ _ c => c.aside
  | .unLikeCartoon _ _ c => c.aside
  | _ => false

/-- A write aside with a closure that writes aside. -/
inductive Aside : Call → Prop where
  | write {auth : Option Uid} {w : Write} {c : Completion} (hw : AsideWrite w)
      (hc : c.aside = true) : Aside ⟨auth, .write w c⟩

/-- Feedback is aside. -/
theorem uploadFeedBack_aside {auth : Option Uid} {toUid : Uid} {type : FeedBackType}
    {cartoon : Option Cartoon} {user : User} {m : Moment} :
    ∀ k ∈ FeedBackService.uploadFeedBack auth toUid type cartoon user m, Aside k := by
  intro k hk
  obtain ⟨-, -, -, rfl⟩ := FeedBackService.mem_uploadFeedBack hk
  exact .write rfl rfl

/-- What a closure aside issues is aside. -/
theorem Completion.run_aside {c : Completion} (hc : c.aside = true) {auth : Option Uid}
    {m : Moment} : ∀ k ∈ (c.run auth m).calls, Aside k := by
  intro k hk
  cases c with
  | screen c =>
    cases c with
    | ignore => cases hk
    | liked cartoon user =>
      simp only [Completion.run, ScreenCompletion.run] at hk
      exact uploadFeedBack_aside k hk
    | commented cartoon user =>
      simp only [Completion.run, ScreenCompletion.run] at hk
      exact uploadFeedBack_aside k hk
    | antiFanned => cases hc
    | fanned => cases hc
  | likeCartoon uid id c =>
    rw [List.mem_singleton.mp hk]
    exact .write rfl hc
  | unLikeCartoon uid id c =>
    rw [List.mem_singleton.mp hk]
    exact .write rfl hc
  | fanUsers => cases hc
  | antiFanUser => cases hc

/-! ## What stems from an action -/

/-- The call can be in flight on account of the action. -/
inductive Stems : Action → Call → Prop where
  | star (t : Tap) : Stems t.action t.star
  | enrol (t : Tap) : Stems t.action t.enrol
  | list (t : Tap) : Stems t.action t.list
  | feed (t : Tap) (x : DocID) : Stems t.action (t.feed x)
  | post (u : Upload) (a : Uid) : Stems (u.action a) (u.post a)
  | read (u : Upload) (a : Uid) : Stems (u.action a) (u.read a)
  | deliver (u : Upload) (a v : Uid) : Stems (u.action a) (u.deliver a v)
  | aside {o : Action} {k : Call} (hk : Aside k) : Stems o k
  | edited {o : Action} {auth : Option Uid} {ref : DocRef} :
      Stems o ⟨auth, .getDocument ref .edited⟩

/-- An action starts nothing, taps, uploads, or acts aside. -/
theorem Action.calls_cases (o : Action) :
    o.calls = [] ∨ (∃ t : Tap, o = t.action ∧ o.calls = [t.star]) ∨
    (∃ (u : Upload) (a : Uid), o = u.action a ∧ o.calls = [u.post a, u.read a]) ∨
    (∀ k ∈ o.calls, Aside k ∨ ∃ auth ref, k = ⟨auth, .getDocument ref .edited⟩) ∧
      o.newRef = none := by
  cases o with
  | didTapButton auth tabUser vc user =>
    rcases header_cases auth tabUser vc user with
      h | ⟨me, currentUser, rfl, rfl, hme, -⟩
    · -- no tab user, nobody signed in, or the own profile
      exact Or.inl h
    · let t : Tap := ⟨me, currentUser, vc, user, hme⟩
      exact Or.inr (Or.inl ⟨t, rfl, t.calls_action⟩)
  | uploadCartoon auth upload =>
    cases auth with
    | none => exact Or.inl rfl
    | some a => exact Or.inr (Or.inr (Or.inl ⟨upload, a, rfl, rfl⟩))
  | likeCartoon auth cartoon user =>
    refine Or.inr (Or.inr (Or.inr ⟨?_, rfl⟩))
    intro k hk
    cases auth with
    | none => cases hk
    | some uid =>
      simp only [Action.calls, CartoonService.likeCartoon, List.mem_cons, List.not_mem_nil,
        or_false] at hk
      rcases hk with rfl | rfl
      · exact Or.inl (.write ⟨rfl, rfl⟩ rfl)
      · exact Or.inl (.write rfl rfl)
  | unLikeCartoon auth cartoon =>
    refine Or.inr (Or.inr (Or.inr ⟨?_, rfl⟩))
    intro k hk
    cases auth with
    | none => cases hk
    | some uid =>
      simp only [Action.calls, CartoonService.unLikeCartoon] at hk
      split at hk
      next =>
        simp only [List.mem_cons, List.not_mem_nil, or_false] at hk
        rcases hk with rfl | rfl
        · exact Or.inl (.write ⟨rfl, rfl⟩ rfl)
        · exact Or.inl (.write rfl rfl)
      next => cases hk
  | editCartoon auth type cartoonId title caption =>
    refine Or.inr (Or.inr (Or.inr ⟨?_, rfl⟩))
    intro k hk
    simp only [Action.calls, CartoonService.editCartoon, List.mem_cons, List.not_mem_nil,
      or_false] at hk
    rcases hk with rfl | rfl
    · exact Or.inl (.write ⟨rfl, rfl⟩ rfl)
    · exact Or.inr ⟨auth, _, rfl⟩

/-- What an action issues stems from it. -/
theorem Stems.start {o : Action} : ∀ k ∈ o.calls, Stems o k := by
  intro k hk
  rcases o.calls_cases with h | ⟨t, rfl, h⟩ | ⟨u, a, rfl, h⟩ | ⟨h, -⟩
  · rw [h] at hk
    cases hk
  · rw [h] at hk
    rw [List.mem_singleton.mp hk]
    exact .star t
  · rw [h] at hk
    simp only [List.mem_cons, List.not_mem_nil, or_false] at hk
    rcases hk with rfl | rfl
    · exact .post u a
    · exact .read u a
  · rcases h k hk with h | ⟨auth, ref, rfl⟩
    · exact .aside h
    · exact .edited

/-! ## What each call does -/

section exec

variable {r : Reply} {s : Firestore}

theorem Tap.star_exec (t : Tap) (hr : r.ok = true) :
    t.star.exec r s =
      ((DocWrite.mark t.didFan ⟨.userStar t.me, t.user.uid⟩).apply s, { calls := [t.enrol] }) := by
  cases hfan : t.user.fan <;>
    simp [Call.exec, Tap.star, Tap.enrol, Tap.didFan, Completion.run, DocWrite.mark, hfan, hr]

/-- The second write leads to feedback at most, and to the query. -/
theorem Tap.enrol_calls (t : Tap) : ∃ back : List Call,
    (∀ k ∈ back, Aside k ∧ ∀ r s, (k.exec r s).2.calls = []) ∧
      (t.enrol.exec r s).2.calls = back ++ [t.list] := by
  cases hfan : t.user.fan with
  | true =>
    -- an unfollow sends no feedback
    refine ⟨[], List.forall_mem_nil _, ?_⟩
    simp [Call.exec, Tap.enrol, Tap.completion, Tap.list, Tap.didFan, Completion.run,
      ScreenCompletion.run, CartoonService.updateMainUserAfterFan, hfan]
  | false =>
    refine ⟨FeedBackService.uploadFeedBack (some t.me) t.user.uid .fan none t.currentUser r.moment,
      fun k hk => ⟨uploadFeedBack_aside k hk, ?_⟩, ?_⟩
    · obtain ⟨-, -, -, rfl⟩ := FeedBackService.mem_uploadFeedBack hk
      exact fun _ _ => rfl
    · simp [Call.exec, Tap.enrol, Tap.completion, Tap.list, Tap.didFan, Completion.run,
        ScreenCompletion.run, CartoonService.updateMainUserAfterFan, hfan]

theorem Tap.enrol_exec (t : Tap) (hr : r.ok = true) :
    (t.enrol.exec r s).1 = (DocWrite.mark t.didFan ⟨.userFan t.user.uid, t.me⟩).apply s := by
  simp [Call.exec, Tap.enrol, hr]

theorem Tap.list_exec (t : Tap) (hr : r.ok = true) :
    t.list.exec r s = (s, { calls := (t.found s).map t.feed }) := by
  cases hfan : t.user.fan <;>
    simp [Call.exec, Tap.list, Tap.found, Tap.feed, Tap.didFan, QueryCallback.run,
      DocWrite.mark, hfan, hr]

theorem Tap.feed_exec (t : Tap) (x : DocID) (hr : r.ok = true) :
    (t.feed x).exec r s = ((DocWrite.mark t.didFan ⟨.userFeed t.me, x⟩).apply s, {}) := by
  simp [Call.exec, Tap.feed, Completion.run, ScreenCompletion.run, hr]

namespace CartoonService.Upload

theorem post_exec (u : Upload) (a : Uid) (hr : r.ok = true) :
    (u.post a).exec r s = ((DocWrite.setData ⟨.cartoon, u.ref⟩ (u.data a)).apply s, {}) := by
  simp [Call.exec, post, Completion.run, ScreenCompletion.run, hr]

theorem read_exec (u : Upload) (a : Uid) (hr : r.ok = true) :
    (u.read a).exec r s = (s, { calls :=
      (s.documents (.userFan a)).map (fun doc => u.deliver a doc.1) ++ [u.deliver a a] }) := by
  simp [Call.exec, read, deliver, QueryCallback.run, Query.documents, DocWrite.mark, hr]

theorem deliver_exec (u : Upload) (a v : Uid) (hr : r.ok = true) :
    (u.deliver a v).exec r s = ((DocWrite.mark true ⟨.userFeed v, u.ref⟩).apply s, {}) := by
  simp [Call.exec, deliver, Completion.run, ScreenCompletion.run, hr]

end CartoonService.Upload

theorem Aside.exec {k : Call} (hk : Aside k) (hr : r.ok = true) :
    (∃ w, AsideWrite w ∧ (k.exec r s).1 = w.apply s) ∧
    ∀ k' ∈ (k.exec r s).2.calls, Aside k' := by
  cases hk with
  | write hw hc => exact ⟨⟨_, hw, by simp [Call.exec, hr]⟩, Completion.run_aside hc⟩

theorem edited_exec {auth : Option Uid} {ref : DocRef} :
    (Call.exec ⟨auth, .getDocument ref .edited⟩ r s).1 = s ∧
    (Call.exec ⟨auth, .getDocument ref .edited⟩ r s).2.calls = [] := by
  refine ⟨rfl, ?_⟩
  simp only [Call.exec, GetCallback.run]
  split
  next => split <;> rfl
  next => rfl

end exec

/-- What the closure of a call issues stems from the same action. -/
theorem Stems.exec {o : Action} {k : Call} (h : Stems o k) {r : Reply} {s : Firestore}
    (hr : r.ok = true) : ∀ k' ∈ (k.exec r s).2.calls, Stems o k' := by
  intro k' hk'
  cases h with
  | star t =>
    rw [t.star_exec hr] at hk'
    rw [List.mem_singleton.mp hk']
    exact .enrol t
  | enrol t =>
    obtain ⟨back, hback, hcalls⟩ := t.enrol_calls (r := r) (s := s)
    rw [hcalls, List.mem_append, List.mem_singleton] at hk'
    rcases hk' with h | rfl
    · exact .aside (hback k' h).1
    · exact .list t
  | list t =>
    rw [t.list_exec hr] at hk'
    obtain ⟨x, -, rfl⟩ := List.mem_map.mp hk'
    exact .feed t x
  | feed t x =>
    rw [t.feed_exec x hr] at hk'
    cases hk'
  | post u a =>
    rw [u.post_exec a hr] at hk'
    cases hk'
  | read u a =>
    rw [u.read_exec a hr] at hk'
    rcases List.mem_append.mp hk' with h | h
    · obtain ⟨doc, -, rfl⟩ := List.mem_map.mp h
      exact .deliver u a doc.1
    · rw [List.mem_singleton.mp h]
      exact .deliver u a a
  | deliver u a v =>
    rw [u.deliver_exec a v hr] at hk'
    cases hk'
  | aside hk => exact .aside ((hk.exec hr).2 k' hk')
  | edited =>
    rw [edited_exec.2] at hk'
    cases hk'

namespace Net

/-- Every call in flight stems from its origin. -/
def Stemmed (n : Net) : Prop := ∀ p ∈ n.inflight, Stems p.origin p.call

/-- No answer is an error. -/
def Answered : Event → Bool
  | .act _ => true
  | .answer _ r => r.ok

theorem stemmed_opened (store : Firestore) : (opened store).Stemmed := fun _ hp => nomatch hp

theorem step_stemmed {n n' : Net} {e : Event} (h : n.Stemmed) (hok : Answered e = true)
    (hstep : n.step e = some n') : n'.Stemmed := by
  intro p hp
  cases e with
  | act o =>
    obtain ⟨-, rfl⟩ := step_act hstep
    rcases List.mem_append.mp hp with hp | hp
    · exact h p hp
    · obtain ⟨k, hk, rfl⟩ := List.mem_map.mp hp
      exact Stems.start k hk
  | answer i r =>
    obtain ⟨pre, q, post, hin, -, rfl⟩ := step_answer hstep
    have hq : Stems q.origin q.call := h q (by rw [hin]; simp)
    rcases mem_answered hin hp with hp | ⟨k, hk, rfl⟩
    · exact h p hp
    · exact hq.exec hok k hk

end Net

end Toontagram
