import Toontagram.Draft.Publish
import Toontagram.Lib.Run

/-!
# Drawing sessions

The slots of `Draft/Slots.lean` over the life of the app. They are in `UserDefaults`,
so they outlive the process, and nothing says whose they are. `RootTabBarController`
empties them in two places: whenever a `user` is assigned to a tab bar (`configureVC`),
and when a `SetUpViewController` is cancelled. A `user` is assigned by the answer of
every `fetchUserData`, and by an upload that has succeeded: it makes a tab bar that is
never shown, which asks for the profile as well. Two more tab bars are made with a `user`,
after the edit of a profile (`ProfileCollectionViewController.didFinish`) and after the deletion
of a cartoon (`CartoonViewController.menuInstance`). They are not among the events here;
what they do to the slots is what the arrival of a profile does.

The tab bar can open a `SetUpViewController` only when its `user` is set.
`slots_empty_at_open` follows, through `Desk.Clean`: no page of an earlier session is
left by then. The other direction, that a page stays until its own session is over,
depends on what comes in between: `Desk.Ok`, `pages_kept_iff`.
-/

namespace Toontagram

open Lib (Along run run_always_iff_along run_inv)

/-- A tab bar that waits for a profile: the one on the screen, or one that was made by
an upload and is not shown. -/
inductive TabBar where
  | root
  | hidden
deriving DecidableEq

/-- What a `SetUpViewController` has presented. -/
inductive Sheet where
  | draw (section' : Fin 5)
  | upload
deriving DecidableEq

/-- A `SetUpViewController` on the screen. `saves` and `finished` are not in the source:
the drawings saved in it, and whether an upload of its own has succeeded. -/
structure SetUp (Image : Type) where
  id : Nat
  user : User
  saves : List (Int × Option Image) := []
  finished : Bool := false
  sheet : Option Sheet := none
deriving DecidableEq

/-- The app on one device. `login` says that a login screen covers the tab bar,
`fetches` and `uploads` are the calls whose closures have not run; an upload is known
by its `SetUpViewController`, of which `opened` have been opened. -/
structure Desk (Image Data : Type) where
  defaults : UserDefaults Data
  auth : Option Uid
  login : Bool
  user : Option User := none
  fetches : List TabBar := []
  setUp : Option (SetUp Image) := none
  opened : Nat := 0
  uploads : List Nat := []

/-- What can happen. `launch` comes after the process was killed or has crashed; the
`user` of `fetched` is `nil` if the closure returns at its guard. UIKit decides whether
the `dismiss` calls after an upload take the `SetUpViewController` down as well
(`closes`). -/
inductive DeskEvent (Image : Type) where
  | launch
  | fetched (i : Nat) (user : Option User)
  | signOut
  | authComplete (uid : Uid)
  | shouldSelect
  | didSelectItemAt (section' : Fin 5)
  | successHandle
  | cancelSheet
  | cartoonLoad (image : Option Image)
  | press (titleTF captionTextView categoryBtn : Option String)
  | uploaded (i : Nat) (ok closes : Bool)
  | cancelHandle
deriving DecidableEq

/-- The events that leave the slots and the drawings alone. -/
def DeskEvent.quiet {Image : Type} : DeskEvent Image → Bool
  | .fetched _ none | .signOut | .authComplete _ | .didSelectItemAt _ | .successHandle
  | .cancelSheet | .press _ _ _ | .uploaded _ false _ => true
  | _ => false

namespace Desk

variable {Image Data : Type}

/-- `RootTabBarController.fetchUserData()`. -/
def fetchUserData (tab : TabBar) (d : Desk Image Data) : Desk Image Data :=
  match d.auth with
  | none => d
  | some _ => { d with fetches := d.fetches ++ [tab] }

/-- `RootTabBarController.configureVC(with:)`, as far as the slots are concerned. -/
def configureVC (d : Desk Image Data) : Desk Image Data := { d with defaults := .removed }

/-- A `user` is assigned to a tab bar. -/
def assign (tab : TabBar) (user : User) (d : Desk Image Data) : Desk Image Data :=
  match tab with
  | .root => configureVC { d with user := some user }
  | .hidden => configureVC d

/-- The app is launched with what an earlier process has left in the slots, and the
account that is still signed in: `viewDidLoad()` of the tab bar. -/
def launched (defaults : UserDefaults Data) (auth : Option Uid) : Desk Image Data :=
  fetchUserData .root { defaults := defaults, auth := auth, login := auth.isNone }

/-- `SetUpViewController.present` of a screen of its own. -/
def present (sheet : Sheet) (d : Desk Image Data) : Option (Desk Image Data) :=
  match d.setUp with
  | none => none
  | some s =>
    if s.sheet = none then some { d with setUp := some { s with sheet := some sheet } } else none

/-- `vcDidFinish(_: UploadViewController)` of the `SetUpViewController` with this `id`: a
tab bar is made, loads its view and gets its `user`. -/
def vcDidFinish (id : Nat) (closes : Bool) (d : Desk Image Data) : Desk Image Data :=
  let d := configureVC (fetchUserData .hidden d)
  match d.setUp with
  | none => d
  | some s =>
    if s.id = id then
      { d with setUp := if closes then none else some { s with finished := true, sheet := none } }
    else d

/-- One event. -/
def step (jpegData : Image → Option Data) (uiImage : Data → Option Image)
    (d : Desk Image Data) : DeskEvent Image → Option (Desk Image Data)
  | .launch => some (launched d.defaults d.auth)
  | .fetched i user =>
    match d.fetches[i]? with
    | none => none
    | some tab =>
      let d := { d with fetches := d.fetches.eraseIdx i }
      match user with
      | none => some d
      | some user => some (d.assign tab user)
  | .signOut =>
    if d.setUp.isNone && !d.login then some { d with auth := none, login := true } else none
  | .authComplete uid =>
    if d.login then some (fetchUserData .root { d with auth := some uid, login := false }) else none
  | .shouldSelect =>
    match d.user with
    | none => none
    | some user =>
      if d.setUp.isNone && !d.login then
        some { d with setUp := some { id := d.opened, user := user }, opened := d.opened + 1 }
      else none
  | .didSelectItemAt section' => d.present (.draw section')
  | .successHandle => d.present .upload
  | .cancelSheet =>
    match d.setUp with
    | none => none
    | some s =>
      if s.sheet.isSome then some { d with setUp := some { s with sheet := none } } else none
  | .cartoonLoad image =>
    match d.setUp with
    | none => none
    | some s =>
      match s.sheet with
      | some (.draw section') =>
        let saves := s.saves ++ [(((section' : Nat) : Int), image)]
        some { d with
          defaults := DrawViewController.cartoonLoad jpegData (section' : Nat) image d.defaults
          setUp := some { s with saves := saves, sheet := none } }
      | _ => none
  | .press titleTF captionTextView categoryBtn =>
    match d.setUp with
    | none => none
    | some s =>
      if s.sheet = some .upload then
        match UploadViewController.successHandle uiImage d.auth d.defaults
          ⟨titleTF, captionTextView, some s.user, categoryBtn⟩ with
        | .declined => some d
        | .outOfRange => none
        | .upload .. => some { d with uploads := d.uploads ++ [s.id] }
      else none
  | .uploaded i ok closes =>
    match d.uploads[i]? with
    | none => none
    | some id =>
      let d := { d with uploads := d.uploads.eraseIdx i }
      some (if ok then d.vcDidFinish id closes else d)
  | .cancelHandle =>
    match d.setUp with
    | none => none
    | some s => if s.sheet = none then some { d with defaults := .removed, setUp := none } else none

/-- All five slots are empty. -/
def Empty (d : Desk Image Data) : Prop := ∀ k, d.defaults (UploadViewController.keys k) = none

/-- An open session whose upload has not succeeded. -/
def Drafting (d : Desk Image Data) : Prop := ∃ s ∈ d.setUp, s.finished = false

/-- No step has begun a session with pages in the slots, and what a slot holds in a
session was saved last there. -/
structure Clean (jpegData : Image → Option Data) (d : Desk Image Data) : Prop where
  closed : d.setUp = none → d.user.isSome = true → d.Empty
  drawn : ∀ s ∈ d.setUp, ∀ k data, d.defaults (UploadViewController.keys k) = some data →
    (lastSaved s.saves k).bind jpegData = some data

/-- The bytes last saved for a page; an image that does not encode has none. -/
def lastBytes (jpegData : Image → Option Data) (saves : List (Int × Option Image)) (k : Fin 5) :
    Option Data :=
  (saves.filterMap fun save => (savedFor k save).bind jpegData).getLast?

/-- In a session whose upload has not succeeded every page is stored as last saved. -/
def Kept (jpegData : Image → Option Data) (d : Desk Image Data) : Prop :=
  ∀ s ∈ d.setUp, s.finished = false →
    ∀ k, d.defaults (UploadViewController.keys k) = lastBytes jpegData s.saves k

/-- The condition for a step.

- A profile arrives, or an upload of another session succeeds, and there is nothing to
  lose.
- What is saved encodes, unless nothing is saved for the page yet. -/
def Ok (jpegData : Image → Option Data) (d : Desk Image Data) : DeskEvent Image → Prop
  | .fetched _ user => user.isSome = true → d.Drafting → d.Empty
  | .uploaded i ok _ => ok = true → d.uploads[i]? ≠ d.setUp.map (·.id) → d.Drafting → d.Empty
  | .cartoonLoad image => ∀ s ∈ d.setUp, s.finished = false → ∀ k : Fin 5,
    s.sheet = some (.draw k) → ∀ image' ∈ image, jpegData image' = none →
      d.defaults (UploadViewController.keys k) = none
  | _ => True

instance (d : Desk Image Data) : Decidable d.Empty :=
  inferInstanceAs (Decidable (∀ k, d.defaults (UploadViewController.keys k) = none))

instance (d : Desk Image Data) : Decidable d.Drafting :=
  decidable_of_iff (d.setUp.any fun s => s.finished = false) (by
    cases hs : d.setUp <;> simp [Drafting, hs])

instance (jpegData : Image → Option Data) (d : Desk Image Data) : DecidablePred (d.Ok jpegData)
  | .fetched _ user =>
    inferInstanceAs (Decidable (user.isSome = true → d.Drafting → d.Empty))
  | .uploaded i ok _ => inferInstanceAs (Decidable
      (ok = true → d.uploads[i]? ≠ d.setUp.map (·.id) → d.Drafting → d.Empty))
  | .cartoonLoad image => inferInstanceAs (Decidable (∀ s ∈ d.setUp, s.finished = false →
      ∀ k : Fin 5, s.sheet = some (.draw k) → ∀ image' ∈ image, jpegData image' = none →
        d.defaults (UploadViewController.keys k) = none))
  | .launch | .signOut | .authComplete _ | .shouldSelect | .didSelectItemAt _ | .successHandle
  | .cancelSheet | .press _ _ _ | .cancelHandle => .isTrue trivial

variable {jpegData : Image → Option Data} {uiImage : Data → Option Image}
  {d d' : Desk Image Data}

/-! ## What one step does -/

/-- The slots, the user and the drawings of the session are as before. -/
structure Same (d d' : Desk Image Data) : Prop where
  defaults : d'.defaults = d.defaults
  user : d'.user = d.user
  setUp : d'.setUp.map (fun s => (s.saves, s.finished)) =
    d.setUp.map fun s => (s.saves, s.finished)

theorem Same.refl (d : Desk Image Data) : Same d d := ⟨rfl, rfl, rfl⟩

theorem same_fetchUserData (tab : TabBar) (d : Desk Image Data) :
    Same d (fetchUserData tab d) := by
  unfold fetchUserData
  split
  next => exact .refl d
  next => exact ⟨rfl, rfl, rfl⟩

theorem same_present {sheet : Sheet} (h : d.present sheet = some d') : Same d d' := by
  unfold present at h
  split at h
  next => cases h
  next s hs =>
    obtain ⟨-, h⟩ := Option.ite_none_right_eq_some.mp h
    obtain rfl := Option.some.inj h
    exact ⟨rfl, rfl, by rw [hs]; rfl⟩

/-- What holds of the session's drawings. -/
theorem Same.forall_iff (h : Same d d') (p : List (Int × Option Image) → Bool → Prop) :
    (∀ s ∈ d'.setUp, p s.saves s.finished) ↔ ∀ s ∈ d.setUp, p s.saves s.finished := by
  have hwork : ∀ d : Desk Image Data, (∀ s ∈ d.setUp, p s.saves s.finished) ↔
      ∀ w ∈ d.setUp.map (fun s => (s.saves, s.finished)), p w.1 w.2 := fun d => by simp
  rw [hwork, hwork, h.setUp]

theorem Same.none_iff (h : Same d d') : d'.setUp = none ↔ d.setUp = none := by
  rw [← Option.map_eq_none_iff, h.setUp, Option.map_eq_none_iff]

theorem same_of_quiet {e : DeskEvent Image} (he : e.quiet = true)
    (h : d.step jpegData uiImage e = some d') : Same d d' := by
  unfold step at h
  cases e with
  | launch | shouldSelect | cartoonLoad | cancelHandle => cases he
  | didSelectItemAt section' => exact same_present h
  | successHandle => exact same_present h
  | fetched i user =>
    cases user with
    | some user => cases he
    | none =>
      simp only at h
      split at h
      next => cases h
      next =>
        obtain rfl := Option.some.inj h
        exact ⟨rfl, rfl, rfl⟩
  | uploaded i ok closes =>
    cases ok with
    | true => cases he
    | false =>
      simp only at h
      split at h
      next => cases h
      next =>
        obtain rfl := Option.some.inj h
        exact ⟨rfl, rfl, rfl⟩
  | signOut =>
    obtain ⟨-, h⟩ := Option.ite_none_right_eq_some.mp h
    obtain rfl := Option.some.inj h
    exact ⟨rfl, rfl, rfl⟩
  | authComplete uid =>
    obtain ⟨-, h⟩ := Option.ite_none_right_eq_some.mp h
    obtain rfl := Option.some.inj h
    obtain ⟨hdefaults, huser, hsetUp⟩ :=
      same_fetchUserData .root { d with auth := some uid, login := false }
    exact ⟨hdefaults, huser, hsetUp⟩
  | cancelSheet =>
    simp only at h
    split at h
    next => cases h
    next s hs =>
      obtain ⟨-, h⟩ := Option.ite_none_right_eq_some.mp h
      obtain rfl := Option.some.inj h
      exact ⟨rfl, rfl, by rw [hs]; rfl⟩
  | press titleTF captionTextView categoryBtn =>
    simp only at h
    split at h
    next => cases h
    next s hs =>
      obtain ⟨-, h⟩ := Option.ite_none_right_eq_some.mp h
      split at h
      next =>
        obtain rfl := Option.some.inj h
        exact .refl d
      next => cases h
      next =>
        obtain rfl := Option.some.inj h
        exact ⟨rfl, rfl, rfl⟩

/-- A profile arrives. -/
theorem fetched_cases {i : Nat} {user : User}
    (h : d.step jpegData uiImage (.fetched i (some user)) = some d') :
    d'.defaults = .removed ∧ d'.setUp = d.setUp := by
  simp only [step] at h
  split at h
  next => cases h
  next tab htab =>
    obtain rfl := Option.some.inj h
    cases tab <;> exact ⟨rfl, rfl⟩

/-- The end of an upload empties the slots. It leaves another session on the screen, and
finishes or closes its own. -/
theorem vcDidFinish_cases (id : Nat) (closes : Bool) (d : Desk Image Data) :
    (vcDidFinish id closes d).defaults = .removed ∧
    (some id ≠ d.setUp.map (·.id) ∧ (vcDidFinish id closes d).setUp = d.setUp ∨
      some id = d.setUp.map (·.id) ∧
        ∀ s ∈ (vcDidFinish id closes d).setUp, s.finished = true) := by
  have hsetUp : (configureVC (fetchUserData .hidden d)).setUp = d.setUp := by
    unfold fetchUserData
    split <;> rfl
  unfold vcDidFinish
  simp only [hsetUp]
  cases hs : d.setUp with
  | none => exact ⟨rfl, .inl ⟨by simp, hsetUp.trans hs⟩⟩
  | some s =>
    by_cases hown : s.id = id
    · simp only [if_pos hown]
      refine ⟨rfl, .inr ⟨by rw [Option.map_some, hown], fun s' hs' => ?_⟩⟩
      cases closes with
      | true => cases hs'
      | false =>
        obtain rfl := Option.some.inj hs'
        rfl
    · simp only [if_neg hown]
      exact ⟨rfl, .inl ⟨fun heq => hown (Option.some.inj heq).symm, hsetUp.trans hs⟩⟩

/-- An upload has succeeded: of another session than the open one, or of this one. -/
theorem uploaded_cases {i : Nat} {closes : Bool}
    (h : d.step jpegData uiImage (.uploaded i true closes) = some d') :
    d'.defaults = .removed ∧
    (d.uploads[i]? ≠ d.setUp.map (·.id) ∧ d'.setUp = d.setUp ∨
      d.uploads[i]? = d.setUp.map (·.id) ∧ ∀ s ∈ d'.setUp, s.finished = true) := by
  simp only [step, if_true] at h
  split at h
  next => cases h
  next id hid =>
    obtain rfl := Option.some.inj h
    rw [hid]
    exact vcDidFinish_cases id closes { d with uploads := d.uploads.eraseIdx i }

/-- A session is opened. -/
theorem shouldSelect_cases (h : d.step jpegData uiImage .shouldSelect = some d') :
    ∃ user, d.user = some user ∧ d.setUp = none ∧ d'.defaults = d.defaults ∧
      d'.setUp = some { id := d.opened, user := user } := by
  simp only [step] at h
  split at h
  next => cases h
  next user huser =>
    obtain ⟨hfree, h⟩ := Option.ite_none_right_eq_some.mp h
    obtain rfl := Option.some.inj h
    have hnone := (Bool.and_eq_true_iff.mp hfree).1
    exact ⟨user, huser, Option.isNone_iff_eq_none.mp hnone, rfl, rfl⟩

/-- A drawing is saved. -/
theorem cartoonLoad_cases {image : Option Image}
    (h : d.step jpegData uiImage (.cartoonLoad image) = some d') :
    ∃ s section', d.setUp = some s ∧ s.sheet = some (.draw section') ∧
      d'.defaults =
        DrawViewController.cartoonLoad jpegData (section' : Nat) image d.defaults ∧
      d'.setUp = some { s with
        saves := s.saves ++ [(((section' : Nat) : Int), image)], sheet := none } := by
  simp only [step] at h
  split at h
  next => cases h
  next s hs =>
    split at h
    next section' hsheet =>
      obtain rfl := Option.some.inj h
      exact ⟨s, section', hs, hsheet, rfl, rfl⟩
    next => cases h

/-- A session is cancelled. -/
theorem cancelHandle_cases (h : d.step jpegData uiImage .cancelHandle = some d') :
    d'.defaults = .removed ∧ d'.setUp = none := by
  simp only [step] at h
  split at h
  next => cases h
  next s hs =>
    obtain ⟨-, h⟩ := Option.ite_none_right_eq_some.mp h
    obtain rfl := Option.some.inj h
    exact ⟨rfl, rfl⟩

/-- The process starts again. -/
theorem launched_eq (defaults : UserDefaults Data) (auth : Option Uid) :
    (launched defaults auth : Desk Image Data).user = none ∧
    (launched defaults auth : Desk Image Data).setUp = none := by
  unfold launched fetchUserData
  cases auth <;> exact ⟨rfl, rfl⟩

/-! ## What every run keeps -/

theorem Clean.of_removed (h : d.defaults = .removed) : d.Clean jpegData where
  closed _ _ k := by rw [h]; rfl
  drawn s _ k data hdata := by
    rw [h] at hdata
    cases hdata

theorem Clean.launched (defaults : UserDefaults Data) (auth : Option Uid) :
    (launched defaults auth : Desk Image Data).Clean jpegData where
  closed _ huser := by
    rw [(launched_eq defaults auth).1] at huser
    cases huser
  drawn s hs := by
    rw [(launched_eq defaults auth).2] at hs
    cases hs

theorem Clean.same (hc : d.Clean jpegData) (h : Same d d') : d'.Clean jpegData where
  closed hnone huser k := by
    rw [h.defaults]
    exact hc.closed (h.none_iff.mp hnone) (h.user ▸ huser) k
  drawn := by
    rw [h.defaults]
    exact (h.forall_iff fun saves _ => ∀ k data, d.defaults (UploadViewController.keys k) =
      some data → (lastSaved saves k).bind jpegData = some data).mpr hc.drawn

/-- A save leaves the encoding of the image in its slot. -/
theorem Clean.save (hc : d.Clean jpegData) {image : Option Image}
    (h : d.step jpegData uiImage (.cartoonLoad image) = some d') : d'.Clean jpegData := by
  obtain ⟨s, section', hs, -, hdefaults, hsetUp⟩ := cartoonLoad_cases h
  refine ⟨fun hnone => ?_, fun s' hs' k data hdata => ?_⟩
  · rw [hsetUp] at hnone
    cases hnone
  · rw [hsetUp] at hs'
    obtain rfl := Option.some.inj hs'
    rw [hdefaults, cartoonLoad_slot d.defaults (((section' : Nat) : Int), image)] at hdata
    simp only [lastSaved, List.filterMap_append]
    cases hsave : savedFor k (((section' : Nat) : Int), image) with
    | none =>
      rw [hsave] at hdata
      rw [List.filterMap_cons_none hsave, List.filterMap_nil, List.append_nil]
      exact hc.drawn s hs k data hdata
    | some image' =>
      rw [hsave] at hdata
      rw [List.filterMap_cons_some hsave, List.filterMap_nil, List.getLast?_concat]
      exact hdata

theorem Clean.step (hc : d.Clean jpegData) {e : DeskEvent Image}
    (h : d.step jpegData uiImage e = some d') : d'.Clean jpegData := by
  by_cases hquiet : e.quiet = true
  · exact hc.same (same_of_quiet hquiet h)
  · cases e with
    | launch =>
      obtain rfl := Option.some.inj h
      exact .launched d.defaults d.auth
    | fetched i user =>
      cases user with
      | none => exact absurd rfl hquiet
      | some user => exact .of_removed (fetched_cases h).1
    | uploaded i ok closes =>
      cases ok with
      | false => exact absurd rfl hquiet
      | true => exact .of_removed (uploaded_cases h).1
    | cartoonLoad image => exact hc.save h
    | cancelHandle => exact .of_removed (cancelHandle_cases h).1
    | shouldSelect =>
      obtain ⟨user, huser, hnone, hdefaults, hsetUp⟩ := shouldSelect_cases h
      have hempty : d.Empty := hc.closed hnone (by rw [huser]; rfl)
      refine ⟨fun hnone' => ?_, fun s hs k data hdata => ?_⟩
      · rw [hsetUp] at hnone'
        cases hnone'
      · rw [hdefaults, hempty k] at hdata
        cases hdata
    | _ => exact absurd rfl hquiet

/-! ## What the condition keeps -/

theorem Kept.same_iff (h : Same d d') : d'.Kept jpegData ↔ d.Kept jpegData := by
  unfold Kept
  rw [h.defaults]
  exact h.forall_iff fun saves finished => finished = false →
    ∀ k, d.defaults (UploadViewController.keys k) = lastBytes jpegData saves k

/-- With empty slots nothing may have been saved. -/
theorem Kept.removed_iff (hkept : d.Kept jpegData) (hdefaults : d'.defaults = .removed)
    (hsetUp : d'.setUp = d.setUp) : d'.Kept jpegData ↔ (d.Drafting → d.Empty) := by
  unfold Kept Drafting
  rw [hdefaults, hsetUp]
  constructor
  · rintro h ⟨s, hs, hfinished⟩ k
    rw [hkept s hs hfinished, ← h s hs hfinished k]
    rfl
  · intro h s hs hfinished k
    rw [← hkept s hs hfinished, h ⟨s, hs, hfinished⟩ k]
    rfl

/-- A save that encodes is the last one of its page. -/
theorem lastBytes_concat (saves : List (Int × Option Image)) (save : Int × Option Image)
    (k : Fin 5) : lastBytes jpegData (saves ++ [save]) k =
      ((savedFor k save).bind jpegData).or (lastBytes jpegData saves k) := by
  rw [lastBytes, lastBytes, List.filterMap_append]
  cases hbytes : (savedFor k save).bind jpegData with
  | none => simp [hbytes]
  | some data => simp [hbytes]

/-- A save keeps what is stored exactly if it stores something itself, or there is
nothing to keep. -/
theorem Kept.save_iff (hkept : d.Kept jpegData) {image : Option Image}
    (h : d.step jpegData uiImage (.cartoonLoad image) = some d') :
    d'.Kept jpegData ↔ d.Ok jpegData (.cartoonLoad image) := by
  obtain ⟨s, section', hs, hsheet, hdefaults, hsetUp⟩ := cartoonLoad_cases h
  have hpage : ∀ k : Fin 5, savedFor k (((section' : Nat) : Int), image) =
      if section' = k then image else none := fun k => by
    simp only [savedFor, DrawViewController.page_section, Fin.val_inj]
  have hslot : ∀ k, d'.defaults (UploadViewController.keys k) =
      (if section' = k then image else none).elim
        (d.defaults (UploadViewController.keys k)) jpegData := fun k => by
    rw [hdefaults, cartoonLoad_slot d.defaults (((section' : Nat) : Int), image), hpage]
    cases (if section' = k then image else none) <;> rfl
  unfold Kept Ok
  simp only [hsetUp, hs, Option.mem_def, Option.some.injEq, forall_eq', lastBytes_concat, hpage,
    hsheet, Sheet.draw.injEq]
  refine imp_congr_right fun hfinished => ?_
  have hbefore := hkept s hs hfinished
  constructor
  · rintro hafter image' rfl hnone
    have hslot' := hafter section'
    rw [hslot, if_pos rfl, Option.elim_some, Option.bind_some, hnone, Option.none_or] at hslot'
    rw [hbefore, ← hslot']
  · intro hok k
    rw [hslot]
    by_cases hk : section' = k
    · subst hk
      rw [if_pos rfl]
      cases image with
      | none => exact hbefore section'
      | some image =>
        cases hdata : jpegData image with
        | none => rw [Option.elim_some, Option.bind_some, hdata, Option.none_or, ← hbefore,
            hok image rfl hdata]
        | some data => rw [Option.elim_some, Option.bind_some, hdata, Option.some_or]
    · rw [if_neg hk]
      exact hbefore k

/-- The step lemma: while the pages are kept, a step keeps them exactly when it meets its
condition. -/
theorem Kept.step_iff (hc : d.Clean jpegData) (hkept : d.Kept jpegData) {e : DeskEvent Image}
    (h : d.step jpegData uiImage e = some d') : d'.Kept jpegData ↔ d.Ok jpegData e := by
  by_cases hquiet : e.quiet = true
  · refine iff_of_true ((same_iff (same_of_quiet hquiet h)).mpr hkept) ?_
    cases e with
    | launch | shouldSelect | cartoonLoad | cancelHandle => cases hquiet
    | fetched i user =>
      cases user with
      | none => exact fun hsome => nomatch hsome
      | some user => cases hquiet
    | uploaded i ok closes =>
      cases ok with
      | false => exact fun hok => nomatch hok
      | true => cases hquiet
    | _ => trivial
  · cases e with
    | launch =>
      obtain rfl := Option.some.inj h
      refine iff_of_true (fun s hs => ?_) trivial
      rw [(launched_eq d.defaults d.auth).2] at hs
      cases hs
    | fetched i user =>
      cases user with
      | none => exact absurd rfl hquiet
      | some user =>
        obtain ⟨hdefaults, hsetUp⟩ := fetched_cases h
        rw [hkept.removed_iff hdefaults hsetUp]
        exact ⟨fun hempty _ => hempty, fun hok => hok rfl⟩
    | uploaded i ok closes =>
      cases ok with
      | false => exact absurd rfl hquiet
      | true =>
        obtain ⟨hdefaults, ⟨hother, hsetUp⟩ | ⟨hown, hfinished⟩⟩ := uploaded_cases h
        · rw [hkept.removed_iff hdefaults hsetUp]
          exact ⟨fun hempty _ _ => hempty, fun hok => hok rfl hother⟩
        · refine iff_of_true (fun s hs hopen => ?_) fun _ hother => absurd hown hother
          rw [hfinished s hs] at hopen
          cases hopen
    | cartoonLoad image => exact hkept.save_iff h
    | cancelHandle =>
      refine iff_of_true (fun s hs => ?_) trivial
      rw [(cancelHandle_cases h).2] at hs
      cases hs
    | shouldSelect =>
      obtain ⟨user, huser, hnone, hdefaults, hsetUp⟩ := shouldSelect_cases h
      refine iff_of_true (fun s hs _ k => ?_) trivial
      rw [hsetUp] at hs
      obtain rfl := Option.some.inj hs
      rw [hdefaults, hc.closed hnone (by rw [huser]; rfl) k]
      rfl
    | _ => exact absurd rfl hquiet

end Desk

/-- For every run, from whatever an earlier process has left in the slots: when the tab bar
opens a `SetUpViewController`, all five slots are empty, and what a slot holds in an open
session was saved last there. -/
theorem slots_empty_at_open {Image Data : Type} {jpegData : Image → Option Data}
    {uiImage : Data → Option Image} {defaults : UserDefaults Data} {auth : Option Uid}
    {es : List (DeskEvent Image)} {d : Desk Image Data}
    (hrun : run (Desk.step jpegData uiImage) (.launched defaults auth) es = some d) :
    (∀ d', d.step jpegData uiImage .shouldSelect = some d' →
      ∀ k, d.defaults (UploadViewController.keys k) = none) ∧
    ∀ s ∈ d.setUp, ∀ k data, d.defaults (UploadViewController.keys k) = some data →
      (lastSaved s.saves k).bind jpegData = some data := by
  have hclean : d.Clean jpegData :=
    run_inv (fun _ _ _ h hstep => h.step hstep) es (.launched defaults auth) hrun
  refine ⟨fun d' hopen => ?_, hclean.drawn⟩
  obtain ⟨user, huser, hnone, -, -⟩ := Desk.shouldSelect_cases hopen
  exact hclean.closed hnone (by rw [huser]; rfl)

/-- A page is drawn, and the process is killed and launched again. -/
def killed (section' : Fin 5) : List (DeskEvent String) :=
  [.fetched 0 (some (User.init .empty)), .shouldSelect, .didSelectItemAt section',
    .cartoonLoad (some "a"), .launch, .fetched 0 (some (User.init .empty))]

/-- `slots_empty_at_open` there. -/
theorem slots_empty_at_open_killed : ∃ d,
    run (Desk.step some some) (.launched .removed (some "author")) (killed 1) = some d ∧
    (d.step some some .shouldSelect).isSome = true ∧
    ∀ k, d.defaults (UploadViewController.keys k) = none := by
  let d :=
    (run (Desk.step some some) (.launched .removed (some "author")) (killed 1)).get (by decide)
  have hrun : run (Desk.step some some) (.launched .removed (some "author")) (killed 1) = some d :=
    (Option.some_get _).symm
  have hopen : d.step some some .shouldSelect = some ((d.step some some .shouldSelect).get
    (by decide)) := (Option.some_get _).symm
  exact ⟨d, hrun, by decide, (slots_empty_at_open hrun).1 _ hopen⟩

/-- For every run: in every open session every page is stored as it was last saved there,
until the session is cancelled or an upload of its own has succeeded, if and only if every
step meets its condition. -/
theorem pages_kept_iff {Image Data : Type} {jpegData : Image → Option Data}
    {uiImage : Data → Option Image} {defaults : UserDefaults Data} {auth : Option Uid}
    {es : List (DeskEvent Image)} {d : Desk Image Data}
    (hrun : run (Desk.step jpegData uiImage) (.launched defaults auth) es = some d) :
    (∀ es₁ es₂ u, es = es₁ ++ es₂ →
      run (Desk.step jpegData uiImage) (.launched defaults auth) es₁ = some u →
      u.Kept jpegData) ↔
    Along (Desk.step jpegData uiImage) (Desk.Ok jpegData) (.launched defaults auth) es := by
  refine run_always_iff_along (P := Desk.Clean jpegData) (Q := Desk.Kept jpegData)
    (fun _ _ _ hc h => hc.step h) (fun _ _ _ hc hkept h => hkept.step_iff hc h) es
    (.launched defaults auth) (fun s hs => ?_) hrun
  rw [(Desk.launched_eq defaults auth).2] at hs
  cases hs

/-- Two pages are drawn after the profile has arrived. -/
def drawnInTurn (first second : Fin 5) : List (DeskEvent String) :=
  [.fetched 0 (some (User.init .empty)), .shouldSelect, .didSelectItemAt first,
    .cartoonLoad (some "a"), .didSelectItemAt second, .cartoonLoad (some "b")]

/-- `pages_kept_iff` there. -/
theorem pages_kept_iff_drawnInTurn : ∃ d,
    run (Desk.step some some) (.launched .removed (some "author")) (drawnInTurn 1 2) = some d ∧
    d.Drafting ∧ d.Kept some := by
  let d := (run (Desk.step some some) (.launched .removed (some "author")) (drawnInTurn 1 2)).get
    (by decide)
  have hrun : run (Desk.step some some) (.launched .removed (some "author"))
      (drawnInTurn 1 2) = some d := (Option.some_get _).symm
  exact ⟨d, hrun, by decide,
    (pages_kept_iff hrun).mpr (by decide) (drawnInTurn 1 2) [] d (List.append_nil _).symm hrun⟩

/-- Another account signs in, and a page is drawn before its profile arrives. -/
def drawnEarly (section' : Fin 5) : List (DeskEvent String) :=
  [.fetched 0 (some (User.init .empty)), .signOut, .authComplete "reader", .shouldSelect,
    .didSelectItemAt section', .cartoonLoad (some "a"), .fetched 0 (some (User.init .empty))]

/-- The profile empties the slot of the page in the open session. -/
theorem pages_kept_drawnEarly : ¬ ∀ (defaults : UserDefaults String) (auth : Option Uid)
    (es : List (DeskEvent String)) (d : Desk String String),
    run (Desk.step some some) (.launched defaults auth) es = some d → d.Kept some := by
  intro hall
  let d := (run (Desk.step some some) (.launched .removed (some "author")) (drawnEarly 1)).get
    (by decide)
  have hkept : d.Kept some :=
    hall .removed (some "author") (drawnEarly 1) d (Option.some_get _).symm
  have hslot := hkept (d.setUp.get (by decide)) (Option.some_get _).symm (by decide) 1
  revert hslot
  decide

end Toontagram
