import Toontagram.Storage.ImageService

/-!
# The pictures of a profile

`API/ImageService.swift`, `editUserProfileImage` and `uploadimages`: two pictures
are put under a fresh name, one after the other, and their URLs are looked up.
The two functions differ in the folder only, so both are `uploadPair`. Their
completion is called exactly if both pictures have an encoding, both puts succeed
and both lookups return a URL (`uploadPair_isSome`), as that of `imageUpload` is
for five pictures.
-/

namespace Toontagram

open Lib (ObjectStore PutReply)

namespace ImageService

variable {Image Data : Type}

/-- The last components of the two paths. -/
def pairSlots : Vector String 2 := #v["userProfileImage", "userBackImage"]

/-- `Storage.storage().reference(withPath: folder).child(fileName).child(slot)`. -/
def pairRef (folder fileName : String) (k : Fin 2) : StoragePath :=
  ((StoragePath.child [] folder).child fileName).child (pairSlots.get k)

/-- What the server decides about two pictures. `fileName` is `UUID().uuidString`. -/
structure PairReplies where
  fileName : String
  puts : Fin 2 → PutReply String
  urls : Fin 2 → Option String

/-- The storage after the two puts. -/
def putPair (storage : Storage Data) (folder : String) (image : Vector Data 2) (r : PairReplies) :
    Storage Data × Bool :=
  storage.putAll [(pairRef folder r.fileName 0, image.get 0, r.puts 0),
    (pairRef folder r.fileName 1, image.get 1, r.puts 1)]

/-- The positions of the two pictures. -/
abbrev profile : Fin 2 := 0
abbrev back : Fin 2 := 1

/-- The two lookups, which both run whatever the first returns. -/
def lookupPair (storage : Storage Data) (folder : String) (r : PairReplies) :
    Storage Data × Option (Vector String 2) :=
  let (storage, url) := storage.downloadURL (pairRef folder r.fileName 0) (r.urls 0)
  let (storage, urls) := storage.downloadURL (pairRef folder r.fileName 1) (r.urls 1)
  (storage, match url, urls with
    | some profileUrl, some backUrl => some #v[profileUrl, backUrl]
    | _, _ => none)

/-- Two pictures under a folder: the storage afterwards, and what the completion
is called with. -/
def uploadPair (folder : String) (jpegData : Image → Option Data) (storage : Storage Data)
    (profileImage profileBackImage : Image) (r : PairReplies) :
    Storage Data × Option (Vector String 2) :=
  match jpegData profileImage, jpegData profileBackImage with
  | some imageData, some backImageData =>
    let (storage, ok) := putPair storage folder #v[imageData, backImageData] r
    if ok then lookupPair storage folder r else (storage, none)
  | _, _ => (storage, none)

/-- `editUserProfileImage(profileImage:profileBackImage:completion:)`. -/
def editUserProfileImage (jpegData : Image → Option Data) :=
  uploadPair "profile_new_images" jpegData

/-- `uploadimages(profileImage:profileBackImage:user:completion:)`. -/
def uploadimages (jpegData : Image → Option Data) :=
  uploadPair "profile_images" jpegData

/-! ## When the completion is called -/

/-- Both pictures have an encoding, both puts succeed and both lookups return a
URL. -/
def PairStored (folder : String) (jpegData : Image → Option Data) (storage : Storage Data)
    (profileImage profileBackImage : Image) (r : PairReplies) : Prop :=
  ∃ imageData backImageData, jpegData profileImage = some imageData ∧
    jpegData profileBackImage = some backImageData ∧
    (r.puts 0).ok = true ∧ (r.puts 1).ok = true ∧
    (lookupPair (putPair storage folder #v[imageData, backImageData] r).1 folder r).2.isSome = true

theorem putPair_ok (storage : Storage Data) (folder : String) (image : Vector Data 2)
    (r : PairReplies) :
    (putPair storage folder image r).2 = true ↔ (r.puts 0).ok = true ∧ (r.puts 1).ok = true := by
  rw [putPair, ObjectStore.putAll_ok_iff]
  simp

theorem uploadPair_isSome (folder : String) (jpegData : Image → Option Data)
    (storage : Storage Data) (profileImage profileBackImage : Image) (r : PairReplies) :
    (uploadPair folder jpegData storage profileImage profileBackImage r).2.isSome = true ↔
      PairStored folder jpegData storage profileImage profileBackImage r := by
  unfold uploadPair PairStored
  split
  next imageData backImageData himage hback =>
    have hok := putPair_ok storage folder #v[imageData, backImageData] r
    simp only
    split
    next h =>
      obtain ⟨h0, h1⟩ := hok.mp h
      constructor
      · exact fun hurl => ⟨imageData, backImageData, himage, hback, h0, h1, hurl⟩
      · intro hstored
        obtain ⟨i, b, hi, hb, -, -, hurl⟩ := hstored
        obtain rfl := Option.some.inj (himage.symm.trans hi)
        obtain rfl := Option.some.inj (hback.symm.trans hb)
        exact hurl
    next h =>
      refine iff_of_false (fun hnone => by cases hnone) ?_
      intro hstored
      obtain ⟨i, b, hi, hb, h0, h1, -⟩ := hstored
      exact h (hok.mpr ⟨h0, h1⟩)
  next hne =>
    refine iff_of_false (fun hnone => by cases hnone) ?_
    intro hstored
    obtain ⟨i, b, hi, hb, -⟩ := hstored
    exact hne i b hi hb

/-- A call that returns a value beside the storage. -/
theorem exists_eq_some_iff {σ α : Type} (p : σ × Option α) :
    (∃ storage a, p = (storage, some a)) ↔ p.2.isSome = true := by
  obtain ⟨storage, _ | a⟩ := p
  · simp
  · simp

end ImageService

end Toontagram
