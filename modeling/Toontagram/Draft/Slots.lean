import Mathlib.Data.Fin.VecNotation
import Toontagram.Storage.ImageService

/-!
# The draft of a cartoon

`DrawViewController.swift`, `SetUpViewController.swift` and
`UploadViewController.swift`: five drawings are kept in `UserDefaults`, one slot
each, and collected when the upload button is pressed. Which slot a page has is
written out by hand at every place: in the switch of `cartoonLoad`, the switches
of the two previews, the array of `getUserDefaultsData` and the indices of
`uploadCartoon`. Each is translated on its own, and `forKey_page`, `forKey_row`
and `forKey_section` say that they agree.

`jpegData` stands for `UIImage.jpegData(compressionQuality: 0.8)` and `uiImage`
for `UIImage(data:)`; either may fail.

`getUserDefaultsData` leaves out the slots that do not decode, and
`uploadCartoon` then reads five fixed indices: `inPlace_iff` says when that is
safe.
-/

namespace Toontagram

variable {Image Data : Type}

/-- `UserDefaults.standard`, for the objects a draft stores. -/
abbrev UserDefaults (Data : Type) := String → Option Data

/-- `set(_:forKey:)`. A nil value removes the key. -/
def UserDefaults.set (d : UserDefaults Data) (value : Option Data) (key : String) :
    UserDefaults Data :=
  fun key' => if key' = key then value else d key'

/-- The defaults after `RootTabBarController` has removed every key. -/
def UserDefaults.removed : UserDefaults Data := fun _ => none

/-! ## Drawing -/

namespace DrawViewController

/-- The page a section is drawn for: the title of the screen. -/
def page : Int → Nat
  | 0 => 0
  | 1 => 1
  | 2 => 2
  | 3 => 3
  | _ => 4

/-- The switch of `cartoonLoad`. -/
def forKey : Int → String
  | 0 => "thumbnail"
  | 1 => "page1"
  | 2 => "page2"
  | 3 => "page3"
  | _ => "page4"

/-- `cartoonLoad()`. `image` is what `createImage` calls its completion with. -/
def cartoonLoad (jpegData : Image → Option Data) (section' : Int) (image : Option Image)
    (d : UserDefaults Data) : UserDefaults Data :=
  match image with
  | none => d
  | some image => d.set (jpegData image) (forKey section')

end DrawViewController

/-- A draft: the saves of drawings, each with its section, since the keys were
removed. -/
def draft (jpegData : Image → Option Data) (saves : List (Int × Option Image)) :
    UserDefaults Data :=
  saves.foldl (fun d save => DrawViewController.cartoonLoad jpegData save.1 save.2 d) .removed

/-! ## The previews -/

/-- What a cell of a preview is configured with, if it is. -/
inductive Preview (Image : Type) where
  | image (image : Image)
  | placeholder
  | untouched
deriving DecidableEq, Repr

/-- One branch of a preview. -/
def preview (uiImage : Data → Option Image) (d : UserDefaults Data) (key : String) :
    Preview Image :=
  match d key with
  | none => .placeholder
  | some imgData =>
    match uiImage imgData with
    | none => .untouched
    | some img => .image img

namespace SetUpViewController

/-- The switch of `collectionView(_:cellForItemAt:)`, with the texts of the
cells. The default is `fatalError`. -/
def forKey : Int → Option (String × String)
  | 0 => some ("THUMBNAIL", "thumbnail")
  | 1 => some ("PAGE-1", "page1")
  | 2 => some ("PAGE-2", "page2")
  | 3 => some ("PAGE-3", "page3")
  | 4 => some ("PAGE-4", "page4")
  | _ => none

/-- `collectionView(_:cellForItemAt:)`: the text and the image of a cell. -/
def cellForItemAt (uiImage : Data → Option Image) (d : UserDefaults Data) (section' : Int) :
    Option (String × Preview Image) :=
  (forKey section').map fun (text, key) => (text, preview uiImage d key)

end SetUpViewController

namespace UploadViewController

/-- The switch of `collectionView(_:cellForItemAt:)`. -/
def forKey : Int → String
  | 0 => "thumbnail"
  | 1 => "page1"
  | 2 => "page2"
  | 3 => "page3"
  | _ => "page4"

/-- `collectionView(_:cellForItemAt:)`. -/
def cellForItemAt (uiImage : Data → Option Image) (d : UserDefaults Data) (row : Int) :
    Preview Image :=
  preview uiImage d (forKey row)

/-- The array of `getUserDefaultsData`. -/
def keys : Fin 5 → String := !["thumbnail", "page1", "page2", "page3", "page4"]

/-- `getUserDefaultsData()`. -/
def getUserDefaultsData (uiImage : Data → Option Image) (d : UserDefaults Data) : List Image :=
  let defaultArray := (List.ofFn keys).map d
  defaultArray.filterMap fun image => image.bind uiImage

end UploadViewController

/-! ## Pressing the button -/

/-- What a press of the upload button comes to. -/
inductive Pressed (Image : Type) where
  /-- A guard returns. -/
  | declined
  /-- An index of the image array is out of range. -/
  | outOfRange
  /-- `ImageService.imageUpload` is called for the account `uid`. -/
  | upload (uid : Uid) (title caption : String) (image : Vector Image 5) (user : User)
      (type : String)
deriving DecidableEq, Repr

/-- The labelled arguments of `ImageService.imageUpload`, in the order of the
URLs its completion gets. -/
def ImageService.pictures (page1 page2 page3 page4 thumb : Image) : Vector Image 5 :=
  #v[thumb, page1, page2, page3, page4]

/-- `CartoonService.uploadCartoon(title:caption:image:user:type:completion:)` up
to the call of `imageUpload`. -/
def CartoonService.uploadImages (auth : Option Uid) (title caption : String)
    (image : List Image) (user : User) (type : String) : Pressed Image :=
  match auth with
  | none => .declined
  | some uid =>
    match image[1]?, image[2]?, image[3]?, image[4]?, image[0]? with
    | some page1, some page2, some page3, some page4, some thumb =>
      .upload uid title caption (ImageService.pictures page1 page2 page3 page4 thumb) user type
    | _, _, _, _, _ => .outOfRange

/-- The optional values that `successHandle` reads. -/
structure UploadForm where
  titleTF : Option String
  captionTextView : Option String
  currentUser : Option User
  categoryBtn : Option String

/-- `UploadViewController.successHandle()` up to the call of `imageUpload`. -/
def UploadViewController.successHandle (uiImage : Data → Option Image) (auth : Option Uid)
    (d : UserDefaults Data) (form : UploadForm) : Pressed Image :=
  match form.titleTF, form.captionTextView, form.currentUser, form.categoryBtn with
  | some titleTxt, some caption, some user, some type =>
    CartoonService.uploadImages auth titleTxt caption (getUserDefaultsData uiImage d) user type
  | _, _, _, _ => .declined

/-! ## The tables agree -/

theorem DrawViewController.forKey_page (section' : Int) :
    ∃ k : Fin 5, page section' = k ∧ forKey section' = UploadViewController.keys k := by
  unfold forKey page
  split
  · exact ⟨0, rfl, rfl⟩
  · exact ⟨1, rfl, rfl⟩
  · exact ⟨2, rfl, rfl⟩
  · exact ⟨3, rfl, rfl⟩
  · exact ⟨4, rfl, rfl⟩

theorem SetUpViewController.forKey_section : ∀ k : Fin 5,
    ∃ text, forKey (k : Nat) = some (text, UploadViewController.keys k)
  | 0 => ⟨_, rfl⟩
  | 1 => ⟨_, rfl⟩
  | 2 => ⟨_, rfl⟩
  | 3 => ⟨_, rfl⟩
  | 4 => ⟨_, rfl⟩

theorem UploadViewController.forKey_row (k : Fin 5) :
    forKey (k : Nat) = keys k := by
  revert k
  decide

/-- The sections of `SetUpViewController` are the pages. -/
theorem DrawViewController.page_section (k : Fin 5) : page (k : Nat) = (k : Nat) := by
  revert k
  decide

/-! ## Collecting the slots -/

/-- The image a slot holds. -/
def decoded (uiImage : Data → Option Image) (d : UserDefaults Data) (k : Fin 5) : Option Image :=
  (d (UploadViewController.keys k)).bind uiImage

section collect

variable {uiImage : Data → Option Image} {d : UserDefaults Data}

/-- The array holds the images of the slots that have one, in order. -/
theorem getUserDefaultsData_eq :
    UploadViewController.getUserDefaultsData uiImage d =
      (List.finRange 5).filterMap (decoded uiImage d) := rfl

/-- With five images every image is at its own index. -/
theorem getUserDefaultsData_full {image : Vector Image 5}
    (h : ∀ k, decoded uiImage d k = some (image.get k)) :
    UploadViewController.getUserDefaultsData uiImage d = image.toList := by
  have hmap : (List.finRange 5).filterMap (decoded uiImage d) =
      (List.finRange 5).map image.get := by
    rw [← List.filterMap_eq_map]
    exact List.filterMap_congr fun k _ => h k
  rw [getUserDefaultsData_eq, hmap]
  exact List.ext_getElem (by simp) fun i hi hi' => by simp [Vector.get]

/-- A slot without an image leaves at most four. -/
theorem length_getUserDefaultsData_lt {k : Fin 5} (h : decoded uiImage d k = none) :
    (UploadViewController.getUserDefaultsData uiImage d).length < 5 := by
  rw [getUserDefaultsData_eq]
  -- one slot at least drops out of the five
  have hlength : (List.finRange 5).length = 5 := List.length_finRange
  rw [← hlength] at *
  exact List.length_filterMap_lt_length_iff_exists.mpr ⟨k, List.mem_finRange k, h⟩

end collect

/-- The five indices that are read of an array of five. -/
theorem uploadImages_full (uid : Uid) (title caption : String) (image : Vector Image 5)
    (user : User) (type : String) :
    CartoonService.uploadImages (some uid) title caption image.toList user type =
      .upload uid title caption image user type := by
  obtain ⟨⟨xs⟩, hxs⟩ := image
  match xs, hxs with
  | [thumb, page1, page2, page3, page4], _ => rfl

/-- Index 4 is read of a shorter one. -/
theorem uploadImages_short {image : List Image} (h : image.length < 5) (uid : Uid)
    (title caption : String) (user : User) (type : String) :
    CartoonService.uploadImages (some uid) title caption image user type = .outOfRange := by
  have hnone : image[4]? = none := List.getElem?_eq_none (by omega)
  simp only [CartoonService.uploadImages]
  split
  next h4 _ =>
    rw [hnone] at h4
    cases h4
  next => rfl

/-- A guard of `successHandle` or of `uploadCartoon` returns. -/
def UploadForm.Declines (form : UploadForm) (auth : Option Uid) : Prop :=
  form.titleTF = none ∨ form.captionTextView = none ∨ form.currentUser = none ∨
    form.categoryBtn = none ∨ auth = none

section press

variable {uiImage : Data → Option Image} {d : UserDefaults Data} {form : UploadForm}
  {auth : Option Uid}

theorem successHandle_declined (h : form.Declines auth) :
    UploadViewController.successHandle uiImage auth d form = .declined := by
  obtain ⟨titleTF, captionTextView, currentUser, categoryBtn⟩ := form
  unfold UploadViewController.successHandle
  split
  next htitle hcaption huser htype =>
    simp only [UploadForm.Declines] at h htitle hcaption huser htype
    rw [htitle, hcaption, huser, htype] at h
    obtain rfl : auth = none := by simpa using h
    rfl
  next => rfl

/-- Past the guards, the array of images is read. -/
theorem successHandle_accepted (h : ¬ form.Declines auth) :
    ∃ uid title caption user type, auth = some uid ∧ form.titleTF = some title ∧
      UploadViewController.successHandle uiImage auth d form =
        CartoonService.uploadImages (some uid) title caption
          (UploadViewController.getUserDefaultsData uiImage d) user type := by
  obtain ⟨titleTF, captionTextView, currentUser, categoryBtn⟩ := form
  simp only [UploadForm.Declines, not_or, ← ne_eq, Option.ne_none_iff_exists'] at h
  obtain ⟨⟨title, rfl⟩, ⟨caption, rfl⟩, ⟨user, rfl⟩, ⟨type, rfl⟩, ⟨uid, rfl⟩⟩ := h
  exact ⟨uid, title, caption, user, type, rfl, rfl, rfl⟩

theorem successHandle_full (h : ¬ form.Declines auth) {image : Vector Image 5}
    (himage : ∀ k, decoded uiImage d k = some (image.get k)) :
    ∃ uid title caption user type, form.titleTF = some title ∧
      UploadViewController.successHandle uiImage auth d form =
        .upload uid title caption image user type := by
  obtain ⟨uid, title, caption, user, type, -, htitle, hpress⟩ := successHandle_accepted h
  refine ⟨uid, title, caption, user, type, htitle, ?_⟩
  rw [hpress, getUserDefaultsData_full himage, uploadImages_full]

theorem successHandle_short (h : ¬ form.Declines auth) {k : Fin 5}
    (hk : decoded uiImage d k = none) :
    UploadViewController.successHandle uiImage auth d form = .outOfRange := by
  obtain ⟨uid, title, caption, user, type, -, -, hpress⟩ := successHandle_accepted h
  rw [hpress, uploadImages_short (length_getUserDefaultsData_lt hk)]

end press

/-! ## Every page in its own position -/

/-- The press is declined, or the upload gets the image of every slot at the
slot's own index. -/
def Pressed.InPlace (uiImage : Data → Option Image) (d : UserDefaults Data) :
    Pressed Image → Prop
  | .declined => True
  | .outOfRange => False
  | .upload _ _ _ image _ _ => ∀ k, decoded uiImage d k = some (image.get k)

/-- For every draft, whatever its slots hold: a press of the upload button is
safe exactly if a guard declines it or all five slots decode. -/
theorem inPlace_iff (uiImage : Data → Option Image) (auth : Option Uid) (d : UserDefaults Data)
    (form : UploadForm) :
    (UploadViewController.successHandle uiImage auth d form).InPlace uiImage d ↔
      form.Declines auth ∨ ∀ k, (decoded uiImage d k).isSome = true := by
  by_cases hdeclines : form.Declines auth
  · rw [successHandle_declined hdeclines]
    exact iff_of_true trivial (Or.inl hdeclines)
  · by_cases hall : ∀ k, (decoded uiImage d k).isSome = true
    · obtain ⟨image, himage⟩ := exists_vector hall
      obtain ⟨uid, title, caption, user, type, -, hpress⟩ := successHandle_full hdeclines himage
      rw [hpress]
      exact iff_of_true himage (Or.inr hall)
    · obtain ⟨k, hk⟩ := not_forall.mp hall
      have hnone : decoded uiImage d k = none := by simpa using hk
      rw [successHandle_short hdeclines hnone]
      exact iff_of_false id fun h => h.elim hdeclines hall

/-- The four pages are drawn, the thumbnail is not. -/
def noThumbnail : UserDefaults String :=
  draft some [(1, some "a"), (2, some "b"), (3, some "c"), (4, some "d")]

/-- With nothing in the slot of the thumbnail, the press reads `image[4]` of four. -/
theorem press_outOfRange :
    UploadViewController.successHandle some (some "author") noThumbnail
        ⟨some "Monday", some "", some (User.init .empty), some "DAILY"⟩ = .outOfRange ∧
      ¬ (UploadViewController.successHandle some (some "author") noThumbnail
        ⟨some "Monday", some "", some (User.init .empty), some "DAILY"⟩).InPlace some
        noThumbnail := by
  have hpress : UploadViewController.successHandle some (some "author") noThumbnail
      ⟨some "Monday", some "", some (User.init .empty), some "DAILY"⟩ = .outOfRange := by decide
  exact ⟨hpress, by rw [hpress]; exact id⟩

end Toontagram
