import Toontagram.Document.Writes

/-!
# Which call the fields of a document come from

The fields of a cartoon fall into three groups and those of a user into two, and
every write takes a group as a whole or leaves it alone (`TopWrite.puts_creation`
to `TopWrite.puts_profile`). So each group is what the last accepted call that
writes it has put there, and `fields_from_calls` says so for every run: whatever
is in flight, however old the copies are that the screens write from, and
whichever calls fail.
-/

namespace Toontagram

open Lib (Puts run run_inv)
open CartoonService (Upload)
open AuthService (Registration)

/-! ## The groups of fields -/

/-- The fields of a cartoon that nobody changes. -/
def Cartoon.creation : List String :=
  ["uid", "time", "username", "userProfileImageUrl", "thumbnailImage", "page1", "page2", "page3",
    "page4"]

/-- The fields of a cartoon that `editCartoon` changes. -/
def Cartoon.texts : List String := ["title", "type", "caption"]

/-- The fields of a user that nobody changes. -/
def User.identity : List String := ["email", "name", "penname", "uid"]

/-- The fields of a user that `editUserData` changes. -/
def User.profile : List String := ["profileImageUrl", "profileBackImageUrl", "introduction"]

namespace Operation

/-- The upload an operation is, with the account. -/
def upload : Operation → Option (Upload × Uid)
  | .action (.uploadCartoon (some a) u) => some (u, a)
  | _ => none

/-- The title, type and caption of an upload or an edit. -/
def texts : Operation → Option (String × String × String)
  | .action (.uploadCartoon _ u) => some (u.title, u.type, u.caption)
  | .action (.editCartoon _ type _ title caption) => some (title, type, caption)
  | _ => none

/-- The number an upload, a like or an unlike writes. -/
def like : Operation → Option Int
  | .action (.uploadCartoon _ _) => some 0
  | .action (.likeCartoon _ cartoon _) => some (cartoon.like + 1)
  | .action (.unLikeCartoon _ cartoon) => some (cartoon.like - 1)
  | _ => none

/-- The registration an operation is. -/
def registration : Operation → Option Registration
  | .userRegister r => some r
  | _ => none

/-- The pictures and the introduction of a registration or a profile edit. -/
def profile : Operation → Option (Vector String 2 × String)
  | .userRegister r => some (r.images, r.introduction)
  | .editUserData _ _ str intro => some (str, intro)
  | _ => none

end Operation

/-- Three strings as the values of three fields. -/
def strings (t : String × String × String) : List (Option Value) :=
  [some (.string t.1), some (.string t.2.1), some (.string t.2.2)]

section puts

variable {o : Operation} {w : Write} {id : DocID}

theorem TopWrite.puts_creation (h : TopWrite o w) (hw : w.ref = ⟨.cartoon, id⟩) :
    Puts Cartoon.creation ⟨.cartoon, id⟩ w
      (o.upload.map fun p => (p.1.data p.2).part Cartoon.creation) := by
  cases h with
  | upload u a =>
    cases hw
    exact .set _
  | like | unLike | edit =>
    cases hw
    exact .beside (by simp [Cartoon.creation, Lib.Fields.ofList])
  | deleteCartoon =>
    cases hw
    exact .delete
  | editUserData | userRegister => cases hw

theorem TopWrite.puts_texts (h : TopWrite o w) (hw : w.ref = ⟨.cartoon, id⟩) :
    Puts Cartoon.texts ⟨.cartoon, id⟩ w (o.texts.map strings) := by
  cases h with
  | upload u a =>
    cases hw
    exact .set (u.data a)
  | edit auth type cartoonId title caption =>
    cases hw
    exact .whole (by simp [Cartoon.texts, Lib.Fields.ofList])
  | like | unLike =>
    cases hw
    exact .beside (by simp [Cartoon.texts, Lib.Fields.ofList])
  | deleteCartoon =>
    cases hw
    exact .delete
  | editUserData | userRegister => cases hw

theorem TopWrite.puts_like (h : TopWrite o w) (hw : w.ref = ⟨.cartoon, id⟩) :
    Puts ["like"] ⟨.cartoon, id⟩ w (o.like.map fun like => [some (.int like)]) := by
  cases h with
  | upload u a =>
    cases hw
    exact .set (u.data a)
  | like | unLike =>
    cases hw
    exact .whole (by simp [Lib.Fields.ofList])
  | edit =>
    cases hw
    exact .beside (by simp [Lib.Fields.ofList])
  | deleteCartoon =>
    cases hw
    exact .delete
  | editUserData | userRegister => cases hw

theorem TopWrite.puts_identity (h : TopWrite o w) (hw : w.ref = ⟨.user, id⟩) :
    Puts User.identity ⟨.user, id⟩ w (o.registration.map fun r => r.data.part User.identity) := by
  cases h with
  | userRegister r =>
    cases hw
    exact .set _
  | editUserData =>
    cases hw
    exact .beside (by simp [User.identity, UserService.edited, Lib.Fields.ofList])
  | upload | like | unLike | edit | deleteCartoon => cases hw

theorem TopWrite.puts_profile (h : TopWrite o w) (hw : w.ref = ⟨.user, id⟩) :
    Puts User.profile ⟨.user, id⟩ w
      (o.profile.map fun p => (UserService.edited p.1 p.2).part User.profile) := by
  cases h with
  | userRegister r =>
    cases hw
    exact .set r.data
  | editUserData =>
    cases hw
    exact .whole (by simp [User.profile, UserService.edited, Lib.Fields.ofList])
  | upload | like | unLike | edit | deleteCartoon => cases hw

end puts

/-! ## Histories -/

/-- What an entry does to the document `ref`, if it is about this one. -/
def Entry.about {α : Type} (ref : DocRef) (f : Operation → Option α) (e : Entry) : Option α :=
  if e.write.ref = ref then f e.origin else none

/-- The accepted calls about a document, as far as `f` looks at them, in order. -/
def history {α : Type} (log : List Entry) (ref : DocRef) (f : Operation → Option α) : List α :=
  log.filterMap (Entry.about ref f)

/-- An entry about another document puts nothing. -/
theorem Entry.puts {α : Type} {keys : List String} {ref : DocRef} {f : Operation → Option α}
    {image : α → List (Option Value)} {e : Entry}
    (h : e.write.ref = ref → Puts keys ref e.write ((f e.origin).map image)) :
    Puts keys ref e.write ((e.about ref f).map image) := by
  unfold Entry.about
  split
  next href => exact h href
  next href => exact .elsewhere href

/-- Where the fields of the cartoon `x` come from. -/
structure CartoonFrom (log : List Entry) (x : DocID) (data : Dictionary) : Prop where
  /-- There was one upload, and what belongs to it is as it wrote it. -/
  creation : ∃ u a, history log ⟨.cartoon, x⟩ Operation.upload = [(u, a)] ∧
    data.part Cartoon.creation = (u.data a).part Cartoon.creation
  /-- The three texts are those of the last upload or edit. -/
  texts : ∃ t, (history log ⟨.cartoon, x⟩ Operation.texts).getLast? = some t ∧
    data.part Cartoon.texts = strings t
  /-- The number is that of the last upload, like or unlike. -/
  like : ∃ like, (history log ⟨.cartoon, x⟩ Operation.like).getLast? = some like ∧
    data.part ["like"] = [some (.int like)]

/-- Where the fields of the profile of `uid` come from. -/
structure UserFrom (log : List Entry) (uid : Uid) (data : Dictionary) : Prop where
  /-- There was one registration, and what belongs to it is as it wrote it. -/
  identity : ∃ r, history log ⟨.user, uid⟩ Operation.registration = [r] ∧
    data.part User.identity = r.data.part User.identity
  /-- The pictures and the introduction are those of the last registration or edit. -/
  profile : ∃ p, (history log ⟨.user, uid⟩ Operation.profile).getLast? = some p ∧
    data.part User.profile = (UserService.edited p.1 p.2).part User.profile

namespace App

section from'

variable {n : App} {id : DocID} {data : Dictionary} {α : Type}

/-- A group of a stored user or cartoon, from the last call that puts it. -/
theorem Sound.part (h : n.Sound) {ref : DocRef} (htop : ref.collection.top = true)
    {keys : List String} {f : Operation → Option α} {image : α → List (Option Value)}
    (hputs : ∀ {o w}, TopWrite o w → w.ref = ref → Puts keys ref w ((f o).map image))
    (hdata : n.state.store.lookup ref = some data) :
    ∃ a, (history n.state.log ref f).getLast? = some a ∧ data.part keys = image a := by
  rw [h.replayed] at hdata
  refine Lib.part_eq_last (fun e he => Entry.puts fun href => ?_) hdata
  exact hputs (h.log e he (href ▸ htop)) href

/-- A document is created once: the history of its creation has one call. -/
theorem Sound.history_eq (h : n.Sound) {ref : DocRef} (htop : ref.collection.top = true)
    {f : Operation → Option α}
    (hsets : ∀ {o w}, TopWrite o w → w.ref = ref → (f o).isSome → Write.sets ref w = true)
    {a : α} (ha : (history n.state.log ref f).getLast? = some a) :
    history n.state.log ref f = [a] := by
  -- an entry that counts sets the document, which `once` allows one time
  have hlength : (history n.state.log ref f).length ≤ 1 := by
    rw [history, List.length_filterMap_eq_countP]
    refine Nat.le_trans (List.countP_mono_left (q := fun e => Write.sets ref e.write) ?_)
      (Nat.le_trans (Nat.le_add_left _ _) (h.once ref htop))
    intro e he hsome
    unfold Entry.about at hsome
    split at hsome
    next href => exact hsets (h.log e he (href ▸ htop)) href hsome
    next => cases hsome
  obtain ⟨before, hbefore⟩ := List.getLast?_eq_some_iff.mp ha
  rw [hbefore, List.length_append, List.length_singleton] at hlength
  obtain rfl : before = [] := List.eq_nil_of_length_eq_zero (by omega)
  exact hbefore

theorem Sound.cartoonFrom (h : n.Sound) (hdata : n.state.store.lookup ⟨.cartoon, id⟩ = some data) :
    CartoonFrom n.state.log id data where
  creation := by
    obtain ⟨⟨u, a⟩, hlast, hpart⟩ := h.part rfl TopWrite.puts_creation hdata
    refine ⟨u, a, h.history_eq rfl ?_ hlast, hpart⟩
    intro o w htop href hsome
    cases htop with
    | upload u a => exact decide_eq_true href
    | like | unLike | edit | deleteCartoon | editUserData | userRegister => cases hsome
  texts := h.part rfl TopWrite.puts_texts hdata
  like := h.part rfl TopWrite.puts_like hdata

theorem Sound.userFrom (h : n.Sound) (hdata : n.state.store.lookup ⟨.user, id⟩ = some data) :
    UserFrom n.state.log id data where
  identity := by
    obtain ⟨r, hlast, hpart⟩ := h.part rfl TopWrite.puts_identity hdata
    refine ⟨r, h.history_eq rfl ?_ hlast, hpart⟩
    intro o w htop href hsome
    cases htop with
    | userRegister r => exact decide_eq_true href
    | upload | like | unLike | edit | deleteCartoon | editUserData => cases hsome
  profile := h.part rfl TopWrite.puts_profile hdata

end from'

/-- Nothing is ever removed from the log. -/
theorem log_grows {n n' m : App} {e : Event} (h : m.state.log <+: n.state.log)
    (hstep : n.step e = some n') : m.state.log <+: n'.state.log := by
  cases e with
  | act o =>
    obtain ⟨-, -, rfl⟩ := step_act hstep
    exact h
  | answer i r =>
    obtain ⟨pre, t, post, -, -, rfl⟩ := step_answer hstep
    exact h.trans (List.prefix_append _ _)
  | fetchCartoon | fetchFeedBack =>
    cases hstep
    exact h

/-- A history of one call stays what it is when the log has grown by others. -/
theorem history_stable {α : Type} {log log' : List Entry} {ref : DocRef} {f : Operation → Option α}
    {a b : α} (hgrows : log <+: log') (ha : history log ref f = [a])
    (hb : history log' ref f = [b]) : b = a := by
  have hprefix : history log ref f <+: history log' ref f := hgrows.filterMap _
  rw [ha, hb] at hprefix
  exact (List.cons_prefix_cons.mp hprefix).1.symm

end App

/-- For every run of any number of clients that do anything the app can do, at
any moment `n` of it and at any later one `n'`: the fields of every cartoon and
every user come from the calls that `CartoonFrom` and `UserFrom` name, and the
fields of the creation are what they were. -/
theorem fields_from_calls {es later : List App.Event} {n n' : App}
    (hrun : run App.step (App.opened ∅) es = some n) (hlater : run App.step n later = some n') :
    (∀ x data', n'.state.store.lookup ⟨.cartoon, x⟩ = some data' →
      CartoonFrom n'.state.log x data' ∧
      ∀ data, n.state.store.lookup ⟨.cartoon, x⟩ = some data →
        data'.part Cartoon.creation = data.part Cartoon.creation) ∧
    (∀ uid data', n'.state.store.lookup ⟨.user, uid⟩ = some data' →
      UserFrom n'.state.log uid data' ∧
      ∀ data, n.state.store.lookup ⟨.user, uid⟩ = some data →
        data'.part User.identity = data.part User.identity) := by
  have hsound : n.Sound := App.sound_run hrun
  have hsound' : n'.Sound := run_inv (fun _ _ _ h => h.step) later hsound hlater
  have hgrows : n.state.log <+: n'.state.log :=
    run_inv (P := fun m => n.state.log <+: m.state.log) (fun _ _ _ h => App.log_grows h) later
      (List.prefix_refl _) hlater
  constructor
  · intro x data' hdata'
    have hfrom' := hsound'.cartoonFrom hdata'
    refine ⟨hfrom', fun data hdata => ?_⟩
    obtain ⟨u', a', hhist', hpart'⟩ := hfrom'.creation
    obtain ⟨u, a, hhist, hpart⟩ := (hsound.cartoonFrom hdata).creation
    cases App.history_stable hgrows hhist hhist'
    exact hpart'.trans hpart.symm
  · intro uid data' hdata'
    have hfrom' := hsound'.userFrom hdata'
    refine ⟨hfrom', fun data hdata => ?_⟩
    obtain ⟨r', hhist', hpart'⟩ := hfrom'.identity
    obtain ⟨r, hhist, hpart⟩ := (hsound.userFrom hdata).identity
    cases App.history_stable hgrows hhist hhist'
    exact hpart'.trans hpart.symm

/-! ### A run of an author and a reader -/

namespace App

/-- The upload of a cartoon without pictures. -/
def post (ref : DocID) : Upload where
  title := ref
  caption := ""
  type := "DAILY"
  user := User.init .empty
  url := Vector.replicate 5 ""
  now := ⟨0, 0⟩
  ref := ref

/-- The cartoon as it is read before anybody has changed it. -/
def posted (ref : DocID) : Cartoon := Cartoon.init ⟨0, 0⟩ ref ((post ref).data "author")

def uploadByAuthor (ref : DocID) : Event :=
  .act (.action (.uploadCartoon (some "author") (post ref)))

/-- The call in flight at place `i` is answered without error. -/
def success (i : Nat) : Event := .answer i ⟨true, ⟨"id", ⟨0, 0⟩⟩⟩

/-- A screen reads the cartoon. -/
def read (x : DocID) : Event := .fetchCartoon x ⟨true, ⟨"id", ⟨0, 0⟩⟩⟩

/-- The author registers and uploads a cartoon. -/
def firstDay : List Event :=
  [.act (.userRegister ⟨"mail", "author", "pen", "", #v["face", "wall"], "author"⟩), success 0,
    uploadByAuthor "c", success 0, success 0, success 0]

/-- The reader likes the cartoon while the author edits it and then the profile. -/
def secondDay : List Event :=
  [read "c", .act (.action (.likeCartoon (some "reader") (posted "c") (User.init .empty))),
    .act (.action (.editCartoon (some "author") "ACTION" "c" "new" "text")),
    success 2, success 0, success 0, success 0, success 0, success 0,
    .act (.editUserData (some "author") (User.init (.ofList [("uid", .string "author")]))
      #v["front", "back"] "hello"), success 0]

def afterFirstDay : App := (run step (opened ∅) firstDay).get (by decide)

def afterSecondDay : App := (run step afterFirstDay secondDay).get (by decide)

end App

theorem fields_from_calls_days : ∃ data data',
    App.afterSecondDay.state.store.lookup ⟨.cartoon, "c"⟩ = some data ∧
    App.afterSecondDay.state.store.lookup ⟨.user, "author"⟩ = some data' ∧
    CartoonFrom App.afterSecondDay.state.log "c" data ∧
    UserFrom App.afterSecondDay.state.log "author" data' ∧
    data.part Cartoon.texts = strings ("new", "ACTION", "text") ∧
    data.part ["like"] = [some (.int 1)] ∧
    data'.part User.profile = strings ("front", "back", "hello") := by
  have hfrom := @fields_from_calls App.firstDay App.secondDay App.afterFirstDay App.afterSecondDay
    (Option.some_get _).symm (Option.some_get _).symm
  have hcartoon : App.afterSecondDay.state.store.lookup ⟨.cartoon, "c"⟩ =
      some ((App.afterSecondDay.state.store.lookup ⟨.cartoon, "c"⟩).get (by decide)) :=
    (Option.some_get _).symm
  have huser : App.afterSecondDay.state.store.lookup ⟨.user, "author"⟩ =
      some ((App.afterSecondDay.state.store.lookup ⟨.user, "author"⟩).get (by decide)) :=
    (Option.some_get _).symm
  exact ⟨_, _, hcartoon, huser, (hfrom.1 _ _ hcartoon).1, (hfrom.2 _ _ huser).1,
    by decide, by decide, by decide⟩

end Toontagram
