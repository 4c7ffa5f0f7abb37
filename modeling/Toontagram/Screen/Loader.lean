import Toontagram.Account.Register
import Toontagram.Draft.Slots

/-!
# Actions behind the loader

Every action that raises the shared loader, from the tap to the end of its chain
of calls. The loader goes up before the guards and comes down in the completion
the screen passes, so a closure that returns early leaves it up.

`dismissed_iff` has the exact condition for each action: an unfollow needs an
account that is signed in, a sign-up needs every value, every encoding, every
put, every URL and the account. The answer of the last Firestore write never
matters, because its closure runs with or without an error.
-/

namespace Toontagram

variable {Image Data : Type}

/-! ## The services -/

/-- `UserService.editUserData(user:profile:backImage:intro:completion:)`. The
completion does not wait for the answer of `updateData`. -/
def UserService.editUserImages (jpegData : Image → Option Data) (user : User)
    (profile backImage : Image) (intro : String) (r : ImageService.PairReplies)
    (updateData : Reply) (completion : Bool → Phone Data → Phone Data) (d : Phone Data) :
    Phone Data :=
  match ImageService.editUserProfileImage jpegData d.storage profile backImage r with
  | (storage, none) => { d with storage := storage }
  | (storage, some str) =>
    let firestore := (UserService.editUserData d.auth user str intro).foldl
      (fun s k => (k.exec updateData s).1) d.firestore
    completion true { d with storage := storage, firestore := firestore }

/-- How the steps of an upload are answered. -/
structure UploadReplies where
  puts : Fin 5 → Lib.PutReply String
  urls : Fin 5 → Option String
  now : Timestamp
  ref : DocID
  addDocument : Reply

/-- `CartoonService.uploadCartoon(...)` from the call of `imageUpload` on. An index
out of range ends the app. -/
def CartoonService.uploadPictures (jpegData : Image → Option Data) (uid : Uid)
    (title caption : String) (image : Vector Image 5) (user : User) (type : String)
    (r : UploadReplies) (completion : Reply → Phone Data → Phone Data) (d : Phone Data) :
    Option (Phone Data) :=
  match ImageService.imageUpload jpegData d.storage image title r.puts r.urls with
  | (storage, none) => some { d with storage := storage }
  | (storage, some url) =>
    if h : url.length = 5 then
      some (Phone.chain completion [r.addDocument]
        (CartoonService.uploadCartoon (some uid)
          ⟨title, caption, type, user, ⟨url.toArray, h⟩, r.now, r.ref⟩)
        { d with storage := storage })
    else none

/-! ## The screens -/

/-- What every completion of a screen does to the loader. -/
def Phone.dismiss (d : Phone Data) : Phone Data := d.complete.showLoader false

/-- `UploadViewController.successHandle()`. The loader is raised a second time
after the guard, which shows no more of it. -/
def UploadViewController.upload (jpegData : Image → Option Data) (uiImage : Data → Option Image)
    (defaults : UserDefaults Data) (form : UploadForm) (r : UploadReplies) (d : Phone Data) :
    Option (Phone Data) :=
  let d := d.showLoader true
  match UploadViewController.successHandle uiImage d.auth defaults form with
  | .declined => some d
  | .outOfRange => none
  | .upload uid title caption image user type =>
    CartoonService.uploadPictures jpegData uid title caption image user type r
      (fun _ d => d.dismiss) d

namespace EditProfileViewController

/-- The optional values that `didTapEditEnd` reads. -/
structure Form (Image : Type) where
  profilePhoto : Option Image
  backPhotoIv : Option Image
  introducetf : Option String
  user : Option User

/-- `didTapEditEnd()`. -/
def didTapEditEnd (jpegData : Image → Option Data) (form : Form Image)
    (r : ImageService.PairReplies) (updateData : Reply) (d : Phone Data) : Phone Data :=
  let d := d.showLoader true
  match form.profilePhoto, form.backPhotoIv, form.introducetf, form.user with
  | some img, some image, some intro, some user =>
    UserService.editUserImages jpegData user img image intro r updateData
      (fun _ d => d.dismiss) d
  | _, _, _, _ => d

end EditProfileViewController

namespace FeedBackTableViewController

/-- `tableView(_:didSelectRowAt:)`, with the notification of the row. -/
def didSelectRowAt (feedback : FeedBack) (ok : Bool) (d : Phone Data) : Phone Data :=
  match UserService.fetchUser d.firestore feedback.uid ok with
  | none => d.showLoader true
  | some _user => (d.showLoader true).dismiss

/-- `cell(_:viewCartoon:)`. -/
def viewCartoon (cartoonId : DocID) (r : Reply) (d : Phone Data) : Phone Data :=
  match CartoonService.fetchCartoon d.firestore cartoonId r with
  | none => d.showLoader true
  | some _cartoon => (d.showLoader true).dismiss

/-- `cell(_:fan:)`. -/
def fan (uid : Uid) (first second : Reply) (d : Phone Data) : Phone Data :=
  Phone.chain (fun _ d => d.dismiss) [first, second] (UserService.fanUsers d.auth uid .ignore)
    (d.showLoader true)

/-- `cell(_:unFan:)`. -/
def unFan (uid : Uid) (first second : Reply) (d : Phone Data) : Phone Data :=
  Phone.chain (fun _ d => d.dismiss) [first, second] (UserService.antiFanUser d.auth uid .ignore)
    (d.showLoader true)

end FeedBackTableViewController

/-- `CommentCollectionViewController.inputView(_:loadComment:)`. The feedback that
its completion sends has no completion. -/
def CommentCollectionViewController.loadComment (tabUser : Option User) (cartoon : Cartoon)
    (comment : String) (m : Moment) (addDocument : Reply) (d : Phone Data) : Phone Data :=
  match tabUser with
  | none => d
  | some currentUser =>
    Phone.chain (fun _ d => d.dismiss) [addDocument]
      (CommentService.uploadComment d.auth comment cartoon.cartoonId currentUser m
        (.commented cartoon currentUser)) (d.showLoader true)

/-! ## All actions -/

/-- The actions that raise the loader, with what they read and how the calls they
start are answered. -/
inductive LoaderAction (Image Data : Type) where
  | signUp (form : RegisterViewController.Form Image) (r : RegisterReplies)
  | upload (defaults : UserDefaults Data) (form : UploadForm) (r : UploadReplies)
  | editProfile (form : EditProfileViewController.Form Image) (r : ImageService.PairReplies)
      (updateData : Reply)
  | openProfile (feedback : FeedBack) (ok : Bool)
  | openCartoon (cartoonId : DocID) (r : Reply)
  | fan (uid : Uid) (first second : Reply)
  | unFan (uid : Uid) (first second : Reply)
  | comment (tabUser : Option User) (cartoon : Cartoon) (text : String) (m : Moment)
      (addDocument : Reply)

namespace LoaderAction

/-- The phone when the chain of calls of the action is answered, if the app still
runs. -/
def perform (jpegData : Image → Option Data) (uiImage : Data → Option Image) (d : Phone Data) :
    LoaderAction Image Data → Option (Phone Data)
  | .signUp form r => some (RegisterViewController.didTapSignUp jpegData form r d)
  | .upload defaults form r => UploadViewController.upload jpegData uiImage defaults form r d
  | .editProfile form r updateData =>
    some (EditProfileViewController.didTapEditEnd jpegData form r updateData d)
  | .openProfile feedback ok => some (FeedBackTableViewController.didSelectRowAt feedback ok d)
  | .openCartoon cartoonId r => some (FeedBackTableViewController.viewCartoon cartoonId r d)
  | .fan uid first second => some (FeedBackTableViewController.fan uid first second d)
  | .unFan uid first second => some (FeedBackTableViewController.unFan uid first second d)
  | .comment tabUser cartoon text m addDocument =>
    some (CommentCollectionViewController.loadComment tabUser cartoon text m addDocument d)

/-- The condition on values and answers under which the completion is reached. -/
def Completes (jpegData : Image → Option Data) (uiImage : Data → Option Image) (d : Phone Data) :
    LoaderAction Image Data → Prop
  | .signUp form r => ∃ c uid, form.credentials = some c ∧ r.Creates jpegData c d uid
  | .upload defaults form r => ¬ form.Declines d.auth ∧
      ∃ (image : Vector Image 5) (title : String), form.titleTF = some title ∧
        (∀ k, decoded uiImage defaults k = some (image.get k)) ∧
        ImageService.PicturesStored jpegData d.storage image title r.puts r.urls
  | .editProfile form r _ => ∃ img image, form.profilePhoto = some img ∧
      form.backPhotoIv = some image ∧ form.introducetf.isSome = true ∧
      form.user.isSome = true ∧
      ImageService.PairStored "profile_new_images" jpegData d.storage img image r
  | .openProfile feedback ok =>
    ok = true ∧ d.firestore.has ⟨.user, feedback.uid⟩ = true
  | .openCartoon cartoonId r => r.ok = true ∧ d.firestore.has ⟨.cartoon, cartoonId⟩ = true
  | .fan _ _ _ => d.auth.isSome = true
  | .unFan _ _ _ => d.auth.isSome = true
  | .comment .. => True

end LoaderAction

/-- If the loader was raised, the completion has run exactly once and the loader
is down. -/
def Phone.Dismissed (d : Phone Data) : Option (Phone Data) → Prop
  | none => False
  | some d' => d'.loads = d.loads ∨ d'.completions = d.completions + 1 ∧ d'.hud = false

/-! ## When the loader comes down -/

section dismissed

variable {d d' : Phone Data}

/-- The completion has run. -/
theorem dismissed_of_complete (h : d'.completions = d.completions) :
    d.Dismissed (some d'.dismiss) :=
  Or.inr ⟨congrArg (· + 1) h, rfl⟩

/-- A closure has returned with the loader up. -/
theorem not_dismissed_of_return (hloads : d'.loads = d.loads + 1)
    (h : d'.completions = d.completions) : ¬ d.Dismissed (some d') := by
  intro hdismissed
  rcases hdismissed with hsame | ⟨hcompletions, -⟩ <;> omega

/-- The last write of a chain may fail, its closure runs all the same. -/
theorem dismissed_chain {k : Call} {w : Write} {c : ScreenCompletion}
    (hk : k.request = .write w (.screen c)) (ks : List Call) (r : Reply)
    (h : d'.completions = d.completions) :
    d.Dismissed (some (Phone.chain (fun _ d => d.dismiss) [r] (k :: ks) d')) := by
  simp only [Phone.chain, hk]
  exact dismissed_of_complete h

variable {jpegData : Image → Option Data} {uiImage : Data → Option Image}

theorem dismissed_signUp (form : RegisterViewController.Form Image) (r : RegisterReplies)
    (d : Phone Data) :
    d.Dismissed (some (RegisterViewController.didTapSignUp jpegData form r d)) ↔
      ∃ c uid, form.credentials = some c ∧ r.Creates jpegData c d uid := by
  unfold RegisterViewController.didTapSignUp
  cases hform : form.credentials with
  | none =>
    refine iff_of_false (not_dismissed_of_return rfl rfl) ?_
    intro hcompletes
    obtain ⟨c, uid, hc, -⟩ := hcompletes
    cases hc
  | some c =>
    by_cases hcreates : ∃ uid, r.Creates jpegData c d uid
    · obtain ⟨uid, h⟩ := hcreates
      obtain ⟨storage, images, hleft⟩ := userRegister_of_creates (d := d.showLoader true)
        RegisterViewController.registered ⟨h.stored, h.free, h.created⟩
      refine iff_of_true ?_ ⟨c, uid, rfl, h⟩
      simp only [hleft]
      exact dismissed_of_complete rfl
    · obtain ⟨storage, hleft⟩ := userRegister_of_not (d := d.showLoader true)
        RegisterViewController.registered fun uid (h : r.Creates jpegData c _ uid) =>
          hcreates ⟨uid, h.stored, h.free, h.created⟩
      refine iff_of_false ?_ ?_
      · simp only [hleft]
        exact not_dismissed_of_return rfl rfl
      · intro hcompletes
        obtain ⟨c', uid, hc, h⟩ := hcompletes
        obtain rfl := Option.some.inj hc
        exact hcreates ⟨uid, h⟩

theorem dismissed_editProfile (form : EditProfileViewController.Form Image)
    (r : ImageService.PairReplies) (updateData : Reply) (d : Phone Data) :
    d.Dismissed (some (EditProfileViewController.didTapEditEnd jpegData form r updateData d)) ↔
      ∃ img image, form.profilePhoto = some img ∧ form.backPhotoIv = some image ∧
        form.introducetf.isSome = true ∧ form.user.isSome = true ∧
        ImageService.PairStored "profile_new_images" jpegData d.storage img image r := by
  obtain ⟨profilePhoto, backPhotoIv, introducetf, user⟩ := form
  unfold EditProfileViewController.didTapEditEnd
  simp only
  split
  next img image intro user =>
    unfold UserService.editUserImages
    split
    next storage hupload =>
      refine iff_of_false (not_dismissed_of_return rfl rfl) ?_
      intro hcompletes
      obtain ⟨img', image', himg, himage, -, -, hstored⟩ := hcompletes
      obtain rfl := Option.some.inj himg
      obtain rfl := Option.some.inj himage
      have hsome := (ImageService.uploadPair_isSome ..).mpr hstored
      have hnone := congrArg (fun p => p.2.isSome) hupload
      exact Bool.false_ne_true (hnone.symm.trans hsome)
    next storage str hupload =>
      refine iff_of_true (dismissed_of_complete rfl) ⟨img, image, rfl, rfl, rfl, rfl, ?_⟩
      exact (ImageService.uploadPair_isSome ..).mp
        ((ImageService.exists_eq_some_iff _).mp ⟨storage, str, hupload⟩)
  next hne =>
    refine iff_of_false (not_dismissed_of_return rfl rfl) ?_
    intro hcompletes
    obtain ⟨img, image, himg, himage, hintro, huser, -⟩ := hcompletes
    obtain ⟨intro, hintro⟩ := Option.isSome_iff_exists.mp hintro
    obtain ⟨user, huser⟩ := Option.isSome_iff_exists.mp huser
    exact hne img image intro user himg himage hintro huser

theorem dismissed_upload (defaults : UserDefaults Data) (form : UploadForm) (r : UploadReplies)
    (d : Phone Data) :
    d.Dismissed (UploadViewController.upload jpegData uiImage defaults form r d) ↔
      ¬ form.Declines d.auth ∧
        ∃ (image : Vector Image 5) (title : String), form.titleTF = some title ∧
          (∀ k, decoded uiImage defaults k = some (image.get k)) ∧
          ImageService.PicturesStored jpegData d.storage image title r.puts r.urls := by
  unfold UploadViewController.upload
  simp only
  by_cases hdeclines : form.Declines d.auth
  · rw [successHandle_declined (show form.Declines (d.showLoader true).auth from hdeclines)]
    exact iff_of_false (not_dismissed_of_return rfl rfl) fun h => h.1 hdeclines
  · have hdeclines' : ¬ form.Declines (d.showLoader true).auth := hdeclines
    by_cases hall : ∀ k, (decoded uiImage defaults k).isSome = true
    · obtain ⟨image, himage⟩ := exists_vector hall
      obtain ⟨uid, title, caption, user, type, htitle, hpress⟩ :=
        successHandle_full hdeclines' himage
      rw [hpress]
      -- what is left is whether `imageUpload` gets to its completion
      have hstored := ImageService.imageUpload_isSome jpegData d.storage image title r.puts r.urls
      simp only [CartoonService.uploadPictures]
      split
      next storage hupload =>
        refine iff_of_false (not_dismissed_of_return rfl rfl) ?_
        intro hcompletes
        obtain ⟨-, image', title', htitle', himage', hpictures⟩ := hcompletes
        obtain rfl := Option.some.inj (htitle.symm.trans htitle')
        have hsame : image' = image := Vector.ext fun i hi =>
          Option.some.inj ((himage' ⟨i, hi⟩).symm.trans (himage ⟨i, hi⟩))
        have hsome := hstored.mpr (hsame ▸ hpictures)
        have hnone := congrArg (fun p => p.2.isSome) hupload
        exact Bool.false_ne_true (hnone.symm.trans hsome)
      next storage url hupload =>
        have hlength : url.length = 5 := ImageService.length_imageUpload hupload
        rw [dif_pos hlength]
        refine iff_of_true (dismissed_chain rfl _ _ rfl) ⟨hdeclines, image, title, htitle, himage,
          hstored.mp ?_⟩
        exact (ImageService.exists_eq_some_iff _).mp ⟨storage, url, hupload⟩
    · obtain ⟨k, hk⟩ := not_forall.mp hall
      have hnone : decoded uiImage defaults k = none := by simpa using hk
      rw [successHandle_short hdeclines' hnone]
      -- the app does not survive the index
      refine iff_of_false id ?_
      intro hcompletes
      obtain ⟨-, image, title, -, himage, -⟩ := hcompletes
      rw [himage k] at hnone
      cases hnone

/-- A read that finds no document never calls the completion. -/
theorem dismissed_openProfile (feedback : FeedBack) (ok : Bool) (d : Phone Data) :
    d.Dismissed (some (FeedBackTableViewController.didSelectRowAt feedback ok d)) ↔
      ok = true ∧ d.firestore.has ⟨.user, feedback.uid⟩ = true := by
  have hfound : (UserService.fetchUser d.firestore feedback.uid ok).isSome = true ↔
      ok = true ∧ d.firestore.has ⟨.user, feedback.uid⟩ = true := by
    cases ok <;> simp [UserService.fetchUser, Lib.Store.has]
  rw [← hfound, FeedBackTableViewController.didSelectRowAt]
  cases UserService.fetchUser d.firestore feedback.uid ok with
  | none => exact iff_of_false (not_dismissed_of_return rfl rfl) Bool.false_ne_true
  | some user => exact iff_of_true (dismissed_of_complete rfl) rfl

theorem dismissed_openCartoon (cartoonId : DocID) (r : Reply) (d : Phone Data) :
    d.Dismissed (some (FeedBackTableViewController.viewCartoon cartoonId r d)) ↔
      r.ok = true ∧ d.firestore.has ⟨.cartoon, cartoonId⟩ = true := by
  have hfound : (CartoonService.fetchCartoon d.firestore cartoonId r).isSome = true ↔
      r.ok = true ∧ d.firestore.has ⟨.cartoon, cartoonId⟩ = true := by
    cases hok : r.ok <;> simp [CartoonService.fetchCartoon, Lib.Store.has, hok]
  rw [← hfound, FeedBackTableViewController.viewCartoon]
  cases CartoonService.fetchCartoon d.firestore cartoonId r with
  | none => exact iff_of_false (not_dismissed_of_return rfl rfl) Bool.false_ne_true
  | some cartoon => exact iff_of_true (dismissed_of_complete rfl) rfl

theorem dismissed_fan (uid : Uid) (first second : Reply) (d : Phone Data) :
    d.Dismissed (some (FeedBackTableViewController.fan uid first second d)) ↔
      d.auth.isSome = true := by
  unfold FeedBackTableViewController.fan
  cases hauth : d.auth with
  | none => exact iff_of_false (not_dismissed_of_return rfl rfl) Bool.false_ne_true
  | some me => exact iff_of_true (dismissed_of_complete rfl) rfl

theorem dismissed_unFan (uid : Uid) (first second : Reply) (d : Phone Data) :
    d.Dismissed (some (FeedBackTableViewController.unFan uid first second d)) ↔
      d.auth.isSome = true := by
  unfold FeedBackTableViewController.unFan
  cases hauth : d.auth with
  | none => exact iff_of_false (not_dismissed_of_return rfl rfl) Bool.false_ne_true
  | some me => exact iff_of_true (dismissed_of_complete rfl) rfl

/-- A comment raises the loader after its guards. -/
theorem dismissed_comment (tabUser : Option User) (cartoon : Cartoon) (text : String)
    (m : Moment) (addDocument : Reply) (d : Phone Data) :
    d.Dismissed (some (CommentCollectionViewController.loadComment tabUser cartoon text m
      addDocument d)) := by
  unfold CommentCollectionViewController.loadComment
  cases tabUser with
  | none => exact Or.inl rfl
  | some currentUser => exact dismissed_chain rfl _ _ rfl

end dismissed

/-- For every action, whatever it reads and however its calls are answered: the
loader it raises is dismissed after exactly one run of its completion if and
only if the action `Completes`. -/
theorem dismissed_iff (jpegData : Image → Option Data) (uiImage : Data → Option Image)
    (d : Phone Data) (a : LoaderAction Image Data) :
    d.Dismissed (a.perform jpegData uiImage d) ↔ a.Completes jpegData uiImage d := by
  cases a with
  | signUp form r => exact dismissed_signUp form r d
  | upload defaults form r => exact dismissed_upload defaults form r d
  | editProfile form r updateData => exact dismissed_editProfile form r updateData d
  | openProfile feedback ok => exact dismissed_openProfile feedback ok d
  | openCartoon cartoonId r => exact dismissed_openCartoon cartoonId r d
  | fan uid first second => exact dismissed_fan uid first second d
  | unFan uid first second => exact dismissed_unFan uid first second d
  | comment tabUser cartoon text m addDocument =>
    exact iff_of_true (dismissed_comment tabUser cartoon text m addDocument d) trivial

/-- The notification of a cartoon that has been deleted is tapped: the loader goes
up and stays. -/
theorem openCartoon_stuck :
    (LoaderAction.openCartoon "c" ⟨true, ⟨"", ⟨0, 0⟩⟩⟩ : LoaderAction String String).perform
        some some .blank = some (Phone.blank.showLoader true) ∧
      ¬ Phone.blank.Dismissed ((LoaderAction.openCartoon "c" ⟨true, ⟨"", ⟨0, 0⟩⟩⟩ :
        LoaderAction String String).perform some some .blank) :=
  ⟨rfl, not_dismissed_of_return rfl rfl⟩

end Toontagram
