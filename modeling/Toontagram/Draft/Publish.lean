import Mathlib.Data.List.Induction
import Toontagram.Draft.Slots
import Toontagram.Storage.Pictures

/-!
# From the drawings to the screen

The way of a picture through the app: `cartoonLoad` puts it into the slot of its
section, `getUserDefaultsData` collects the slots, `imageUpload` stores the five
pictures and returns their URLs, `uploadCartoon` writes the URLs into the
document, `Cartoon.init` reads them, and `CartoonViewController.cartoonSub` lists
them for the screen.

`slot_draft` says what a slot holds after any saves, `pages_in_order` follows the
pictures to the end. That `uiImage` gives back what `jpegData` was given is a
hypothesis; what Storage gives back is `Lib/ObjectStore.lean`.
-/

namespace Toontagram

open Lib (ObjectStore)

variable {Image Data : Type} {jpegData : Image → Option Data} {uiImage : Data → Option Image}

/-- `CartoonViewController.cartoonSub()`: the URLs the screen shows, by position. -/
def CartoonViewController.cartoonSub (cartoon : Cartoon) : Vector String 5 :=
  #v[cartoon.thumbnailImage, cartoon.page1, cartoon.page2, cartoon.page3, cartoon.page4]

/-- What the cartoon screen shows at a position. -/
def CartoonViewController.shown (uiImage : Data → Option Image) (storage : Storage Data)
    (cartoon : Cartoon) (k : Fin 5) : Option Image :=
  (storage.resolve ((cartoonSub cartoon).get k)).bind uiImage

/-- The drawings saved for a page. -/
def savedFor (k : Fin 5) (save : Int × Option Image) : Option Image :=
  if DrawViewController.page save.1 = k then save.2 else none

/-- The image last saved for a page. -/
def lastSaved (saves : List (Int × Option Image)) (k : Fin 5) : Option Image :=
  (saves.filterMap (savedFor k)).getLast?

/-! ## The slots -/

/-- One save sets the slot of its page and no other. -/
theorem cartoonLoad_slot (d : UserDefaults Data) (save : Int × Option Image) (k : Fin 5) :
    DrawViewController.cartoonLoad jpegData save.1 save.2 d (UploadViewController.keys k) =
      match savedFor k save with
      | some image => jpegData image
      | none => d (UploadViewController.keys k) := by
  obtain ⟨section', image⟩ := save
  have hkeys : ∀ k k' : Fin 5, UploadViewController.keys k =
      UploadViewController.keys k' → k = k' := by decide
  cases image with
  | none => simp [DrawViewController.cartoonLoad, savedFor]
  | some image =>
    obtain ⟨k', hpage, hkey⟩ := DrawViewController.forKey_page section'
    simp only [DrawViewController.cartoonLoad, UserDefaults.set, savedFor, hpage, hkey]
    by_cases hk : (k' : Nat) = k
    · rw [if_pos hk, if_pos (by rw [Fin.ext hk])]
    · rw [if_neg hk, if_neg fun h => hk (by rw [hkeys _ _ h])]

/-- After any saves a slot holds the encoding of the image last saved for its page. -/
theorem slot_draft (saves : List (Int × Option Image)) (k : Fin 5) :
    draft jpegData saves (UploadViewController.keys k) =
      (lastSaved saves k).bind jpegData := by
  -- from the end: the last save sets the slot or leaves what the others have left
  induction saves using List.reverseRecOn with
  | nil => rfl
  | append_singleton saves save ih =>
    have hdraft : draft jpegData (saves ++ [save]) =
        DrawViewController.cartoonLoad jpegData save.1 save.2 (draft jpegData saves) :=
      List.foldl_concat ..
    rw [hdraft, cartoonLoad_slot, lastSaved, List.filterMap_append]
    cases hsave : savedFor k save with
    | none =>
      rw [List.filterMap_cons_none hsave, List.filterMap_nil, List.append_nil]
      exact ih
    | some image =>
      rw [List.filterMap_cons_some hsave, List.filterMap_nil, List.getLast?_concat]
      rfl

/-- What a slot decodes to, if `uiImage` undoes `jpegData`. -/
theorem decoded_draft (hcodec : ∀ image data, jpegData image = some data →
      uiImage data = some image) {saves : List (Int × Option Image)} {k : Fin 5}
    (h : (decoded uiImage (draft jpegData saves) k).isSome = true) :
    ∃ image data, lastSaved saves k = some image ∧ jpegData image = some data ∧
      decoded uiImage (draft jpegData saves) k = some image := by
  rw [decoded, slot_draft] at h ⊢
  cases himage : lastSaved saves k with
  | none => simp [himage] at h
  | some image =>
    cases hdata : jpegData image with
    | none => simp [himage, hdata] at h
    | some data =>
      refine ⟨image, data, rfl, hdata, ?_⟩
      rw [Option.bind_some, hdata, Option.bind_some]
      exact hcodec image data hdata

/-! ## The previews -/

/-- A preview of a slot that decodes. -/
theorem preview_decoded {d : UserDefaults Data} {k : Fin 5} {image : Image}
    (h : decoded uiImage d k = some image) :
    preview uiImage d (UploadViewController.keys k) = .image image := by
  obtain ⟨data, hdata, himage⟩ := Option.bind_eq_some_iff.mp h
  simp only [preview, hdata, himage]

/-! ## The document and the screen -/

/-- The screen's URLs are those of the upload, position by position. -/
theorem cartoonSub_init (now : Timestamp) (id : DocID) (u : CartoonService.Upload) (uid : Uid) :
    ∀ k : Fin 5, (CartoonViewController.cartoonSub (Cartoon.init now id (u.data uid))).get k =
      u.url.get k
  | 0 => rfl
  | 1 => rfl
  | 2 => rfl
  | 3 => rfl
  | 4 => rfl

/-- After an upload whose steps succeed the screen shows what was uploaded. -/
theorem shown_uploaded (hcodec : ∀ image data, jpegData image = some data →
      uiImage data = some image) {s s' : Cloud Image Data} {e : UploadCall Image}
    (hstep : s.step jpegData e = some s') :
    ∃ data : Dictionary, s'.firestore.lookup ⟨.cartoon, e.ref⟩ = some data ∧
      ∀ (now : Timestamp) (k : Fin 5),
        CartoonViewController.shown uiImage s'.storage (Cartoon.init now e.ref data) k =
          some (e.image.get k) := by
  obtain ⟨-, hup, hfirestore, -⟩ := Cloud.step_cases hstep
  refine ⟨(e.upload e.url).data e.uid, ?_, fun now k => ?_⟩
  · rw [hfirestore]
    exact Lib.Store.lookup_apply_setData_self ..
  · obtain ⟨data, hdata⟩ := Option.isSome_iff_exists.mp (hup.encoded k)
    obtain ⟨hworks, hpath⟩ := hup.url k
    rw [CartoonViewController.shown, cartoonSub_init now e.ref (e.upload e.url) e.uid k]
    have hresolve : s'.storage.resolve (e.url.get k) = some data := by
      rw [ObjectStore.resolve_of_path hpath, if_neg hworks, hup.put k, hdata]
    show (s'.storage.resolve (e.url.get k)).bind uiImage = _
    rw [hresolve]
    exact hcodec _ data hdata

/-- For every sequence of saves that leaves five decodable slots: the press
uploads the image last saved for each page, both previews show it at the page's
index, and once the steps of the upload have succeeded the cartoon screen shows
it at the page's position. -/
theorem pages_in_order (hcodec : ∀ image data, jpegData image = some data →
      uiImage data = some image) {saves : List (Int × Option Image)}
    (hdraft : ∀ k, (decoded uiImage (draft jpegData saves) k).isSome = true)
    (uid : Uid) (title caption type : String) (user : User) :
    ∃ image : Vector Image 5,
      UploadViewController.successHandle uiImage (some uid) (draft jpegData saves)
          ⟨some title, some caption, some user, some type⟩ =
        .upload uid title caption image user type ∧
      (∀ k : Fin 5, lastSaved saves k = some (image.get k) ∧
        (∃ text, SetUpViewController.cellForItemAt uiImage (draft jpegData saves) (k : Nat) =
          some (text, .image (image.get k))) ∧
        UploadViewController.cellForItemAt uiImage (draft jpegData saves) (k : Nat) =
          .image (image.get k)) ∧
      ∀ (s s' : Cloud Image Data) (now : Timestamp) (ref : DocID)
        (stop : Vector (List String) 5) (url : Vector String 5),
        s.step jpegData ⟨uid, title, caption, image, user, type, now, ref, stop, url⟩ = some s' →
        ∃ data : Dictionary, s'.firestore.lookup ⟨.cartoon, ref⟩ = some data ∧
          ∀ (now' : Timestamp) (k : Fin 5),
            CartoonViewController.shown uiImage s'.storage (Cartoon.init now' ref data) k =
              some (image.get k) := by
  obtain ⟨image, hget⟩ := exists_vector hdraft
  refine ⟨image, ?_, fun k => ⟨?_, ?_, ?_⟩, fun s s' now ref stop url hstep =>
    shown_uploaded hcodec hstep⟩
  · simp only [UploadViewController.successHandle]
    rw [getUserDefaultsData_full hget, uploadImages_full]
  · obtain ⟨image, data, himage, -, hdecoded⟩ := decoded_draft hcodec (hdraft k)
    rw [himage, ← hdecoded, hget k]
  · obtain ⟨text, htext⟩ := SetUpViewController.forKey_section k
    refine ⟨text, ?_⟩
    rw [SetUpViewController.cellForItemAt, htext, Option.map_some]
    exact congrArg (fun cell => some (text, cell)) (preview_decoded (hget k))
  · rw [UploadViewController.cellForItemAt, UploadViewController.forKey_row,
      preview_decoded (hget k)]

/-- Five pages drawn out of order, the thumbnail twice. -/
def sketches : List (Int × Option String) :=
  [(3, some "c"), (0, some "sketch"), (1, some "a"), (4, some "d"), (2, some "b"), (0, some "t")]

/-- Their upload, all of whose steps succeed. -/
def sketchesUpload : UploadCall String :=
  ⟨"author", "Monday", "", #v["t", "a", "b", "c", "d"], User.init .empty, "DAILY", ⟨1, 0⟩, "c",
    Vector.replicate 5 [], #v["t0", "a1", "b2", "c3", "d4"]⟩

/-- `pages_in_order` for them, with pictures that are their own encoding. -/
theorem pages_in_order_sketches : ∃ s' : Cloud String String,
    UploadViewController.successHandle some (some "author") (draft some sketches)
        ⟨some "Monday", some "", some (User.init .empty), some "DAILY"⟩ =
      .upload "author" "Monday" "" sketchesUpload.image (User.init .empty) "DAILY" ∧
    lastSaved sketches 0 = some "t" ∧
    Cloud.step some (.opened ∅ .empty) sketchesUpload = some s' ∧
    ∃ data : Dictionary, s'.firestore.lookup ⟨.cartoon, "c"⟩ = some data ∧
      CartoonViewController.shown some s'.storage (Cartoon.init ⟨2, 0⟩ "c" data) 4 = some "d" := by
  have hcodec : ∀ image data : String, some image = some data → some data = some image :=
    fun _ _ h => h.symm
  have hdraft : ∀ k, (decoded some (draft some sketches) k).isSome = true := by decide
  obtain ⟨image, hpress, hpages, hdocument⟩ :=
    pages_in_order hcodec hdraft "author" "Monday" "" "DAILY" (User.init .empty)
  have hpressed : UploadViewController.successHandle some (some "author") (draft some sketches)
      ⟨some "Monday", some "", some (User.init .empty), some "DAILY"⟩ =
        .upload "author" "Monday" "" sketchesUpload.image (User.init .empty) "DAILY" := by decide
  obtain ⟨-, -, -, rfl, -⟩ := Pressed.upload.inj (hpress.symm.trans hpressed)
  let s' := (Cloud.step some (.opened ∅ .empty) sketchesUpload).get (by decide)
  have hstep : Cloud.step some (.opened ∅ .empty) sketchesUpload = some s' :=
    (Option.some_get _).symm
  obtain ⟨data, hdata, hshown⟩ := hdocument _ s' ⟨1, 0⟩ "c" _ _ hstep
  exact ⟨s', hpress, (hpages 0).1, hstep, data, hdata, hshown ⟨2, 0⟩ 4⟩

end Toontagram
