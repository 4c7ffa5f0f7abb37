import Mathlib.Data.Fin.VecNotation
import Mathlib.Data.List.FinRange
import Toontagram.Lib.ObjectStore
import Toontagram.Api.Services

/-!
# The pictures of a cartoon

`API/ImageService.swift`, `imageUpload`: five pictures are put under a path made
of the title, one after the other, and their URLs are looked up. The order of
the pictures is everywhere the one of the completion's argument: thumbnail,
page1, page2, page3, page4.

What the server decides, how a put or a lookup ends, are arguments, and so is
`jpegData(compressionQuality: 0.8)`, which may fail.
-/

namespace Toontagram

open Lib (ObjectStore PutReply)

/-- `FIRStoragePath`: the components of an object's path. -/
abbrev StoragePath := List String

namespace StoragePath

/-- `standardizedPathForString:`: empty components are dropped. -/
def standardized (s : String) : List String :=
  ((s.toList.splitOn '/').filter (· ≠ [])).map String.ofList

/-- `child:`. -/
def child (p : StoragePath) (s : String) : StoragePath := p ++ standardized s

end StoragePath

/-- Firebase Storage, for objects of the type that `jpegData` returns. -/
abbrev Storage (Data : Type) := ObjectStore StoragePath String Data

/-- Optional values that are all there are a vector. -/
theorem exists_vector {α : Type} {n : Nat} {f : Fin n → Option α}
    (h : ∀ k, (f k).isSome = true) : ∃ v : Vector α n, ∀ k, f k = some (v.get k) := by
  refine ⟨Vector.ofFn fun k => (f k).get (h k), fun k => ?_⟩
  show f k = some ((Vector.ofFn fun k => (f k).get (h k))[(k : Nat)])
  rw [Vector.getElem_ofFn, Option.some_get]

namespace ImageService

variable {Image Data : Type}

/-- The last components of the five paths. -/
def slots : Vector String 5 := #v["thumbnail", "page1", "page2", "page3", "page4"]

/-- `Storage.storage().reference(withPath: "cartoon_images").child(title).child(slot)`. -/
def pictureRef (title : String) (k : Fin 5) : StoragePath :=
  ((StoragePath.child [] "cartoon_images").child title).child (slots.get k)

/-- `imageUpload(page1:page2:page3:page4:thumb:title:completion:)`: the storage
afterwards, and what the completion is called with. -/
def imageUpload (jpegData : Image → Option Data) (storage : Storage Data)
    (image : Vector Image 5) (title : String) (puts : Fin 5 → PutReply String)
    (urls : Fin 5 → Option String) : Storage Data × Option (List String) :=
  if h : ∀ k : Fin 5, (jpegData (image.get k)).isSome then
    let put (k : Fin 5) := (pictureRef title k, (jpegData (image.get k)).get (h k), puts k)
    let (storage, ok) := storage.putAll [put 0, put 1, put 2, put 3]
    if ok then
      -- the closure of the last put does not look at its error
      let (storage, _) := storage.putAll [put 4]
      storage.downloadURLs ((List.finRange 5).map fun k => (pictureRef title k, urls k))
    else (storage, none)
  else (storage, none)

/-! ## The paths -/

/-- The path of a picture: the components of the title, then the slot. -/
theorem pictureRef_eq (title : String) (k : Fin 5) :
    pictureRef title k = "cartoon_images" :: StoragePath.standardized title ++ [slots.get k] := by
  have hroot : StoragePath.standardized "cartoon_images" = ["cartoon_images"] := by decide
  have hslot : ∀ k : Fin 5, StoragePath.standardized (slots.get k) = [slots.get k] := by decide
  rw [pictureRef, StoragePath.child, StoragePath.child, StoragePath.child, hroot, hslot]
  rfl

/-- Two pictures have one path exactly if the titles have the same components
and the slot is the same. -/
theorem pictureRef_inj {title title' : String} {k k' : Fin 5} :
    pictureRef title k = pictureRef title' k' ↔
      StoragePath.standardized title = StoragePath.standardized title' ∧ k = k' := by
  rw [pictureRef_eq, pictureRef_eq]
  constructor
  · intro h
    obtain ⟨hinit, hlast⟩ := List.append_inj' h rfl
    refine ⟨(List.cons_eq_cons.mp hinit).2, ?_⟩
    have hslots : ∀ k k' : Fin 5, [slots.get k] = [slots.get k'] → k = k' := by decide
    exact hslots k k' hlast
  · rintro ⟨htitle, rfl⟩
    rw [htitle]

/-! ## An upload that succeeds -/

/-- What a successful upload leaves. -/
structure Uploaded (jpegData : Image → Option Data) (storage storage' : Storage Data)
    (image : Vector Image 5) (title : String) (puts : Fin 5 → PutReply String)
    (url : Vector String 5) : Prop where
  encoded : ∀ k : Fin 5, (jpegData (image.get k)).isSome
  put : ∀ k : Fin 5, storage'.objects.lookup (pictureRef title k) = jpegData (image.get k)
  other : ∀ p, (∀ k, p ≠ pictureRef title k) →
    storage'.objects.lookup p = storage.objects.lookup p
  stopped : ∀ u, u ∈ storage'.stopped ↔ u ∈ storage.stopped ∨
    ∃ k : Fin 5, u ∈ (puts k).stop ∧ storage.paths.lookup u = some (pictureRef title k)
  paths : ∀ u p, storage.paths.lookup u = some p → storage'.paths.lookup u = some p
  url : ∀ k : Fin 5, url.get k ∉ storage'.stopped ∧
    storage'.paths.lookup (url.get k) = some (pictureRef title k)

/-- With all puts successful, a call of the completion gets the URLs the server
chose, and leaves the pictures at their paths. -/
theorem imageUpload_spec {jpegData : Image → Option Data} {storage storage' : Storage Data}
    {image : Vector Image 5} {title : String} {puts : Fin 5 → PutReply String}
    {url : Vector String 5} {urls : List String} (hok : ∀ k, (puts k).ok = true)
    (h : imageUpload jpegData storage image title puts (fun k => some (url.get k)) =
      (storage', some urls)) :
    urls = url.toList ∧ Uploaded jpegData storage storage' image title puts url := by
  unfold imageUpload at h
  split at h
  next hencoded =>
    let put (k : Fin 5) := (pictureRef title k, (jpegData (image.get k)).get (hencoded k), puts k)
    have hputs : ∀ ks : List (Fin 5), ∀ x ∈ ks.map put, x.2.2.ok = true := by
      intro ks x hx
      obtain ⟨k, -, rfl⟩ := List.mem_map.mp hx
      exact hok k
    have hfirst : storage.putAll ([0, 1, 2, 3].map put) =
        ((storage.putAll ([0, 1, 2, 3].map put)).1, true) :=
      Prod.ext rfl (ObjectStore.putAll_of_ok (hputs _) storage)
    -- the last put is one more of the batch
    obtain ⟨middle, hall⟩ : ∃ middle, storage.putAll ((List.finRange 5).map put) = (middle, true) :=
      ⟨_, Prod.ext rfl (ObjectStore.putAll_of_ok (hputs _) storage)⟩
    have hlast : ((storage.putAll ([0, 1, 2, 3].map put)).1.putAll [put 4]).1 = middle := by
      rw [← ObjectStore.putAll_append hfirst]
      exact congrArg Prod.fst hall
    have hfirst' : (storage.putAll [put 0, put 1, put 2, put 3]).2 = true :=
      congrArg Prod.snd hfirst
    replace h : middle.downloadURLs ((List.finRange 5).map fun k =>
        (pictureRef title k, some (url.get k))) = (storage', some urls) := by
      rw [← hlast]
      refine Eq.trans ?_ h
      simp only [put] at hfirst' ⊢
      rw [hfirst', if_pos rfl]
      rfl
    have hstorage : (middle.downloadURLs ((List.finRange 5).map fun k =>
        (pictureRef title k, some (url.get k)))).1 = storage' := congrArg Prod.fst h
    obtain ⟨hmap, hworks⟩ := ObjectStore.downloadURLs_spec (congrArg Prod.snd h)
    obtain ⟨hobjects, hstopped⟩ := middle.downloadURLs_objects ((List.finRange 5).map fun k =>
      (pictureRef title k, some (url.get k)))
    rw [hstorage] at hworks hobjects hstopped
    have hpaths := ObjectStore.paths_putAll hall
    have hfst : ((List.finRange 5).map put).map Prod.fst =
        (List.finRange 5).map (pictureRef title) := List.map_map
    refine ⟨?_, hencoded, fun k => ?_, fun p hp => ?_, fun u => ?_, fun u p hu => ?_, fun k => ?_⟩
    · have hurl : ((List.finRange 5).map fun k =>
          (pictureRef title k, some (url.get k))).map Prod.snd = url.toList.map some := by
        rw [List.map_map]
        exact List.ext_getElem (by simp) fun i hi hi' => by
          simp [Vector.get]
      exact ((List.map_inj_right fun _ _ => Option.some.inj).mp (hurl.symm.trans hmap)).symm
    · rw [hobjects, ObjectStore.lookup_putAll hall ?_ (List.mem_map_of_mem (List.mem_finRange k))]
      · exact Option.some_get _
      · rw [hfst]
        exact (List.nodup_finRange 5).map fun _ _ h => (pictureRef_inj.mp h).2
    · rw [hobjects, ObjectStore.lookup_putAll_of_not_mem hall]
      rw [hfst, List.mem_map]
      rintro ⟨k, -, rfl⟩
      exact hp k rfl
    · rw [hstopped, ObjectStore.stopped_putAll hall]
      simp only [List.mem_map, List.mem_finRange, true_and, exists_exists_eq_and, put]
    · rw [← hstorage]
      exact ObjectStore.downloadURLs_paths (hpaths ▸ hu)
    · have hmem : (pictureRef title k, some (url.get k)) ∈ (List.finRange 5).map fun k =>
          (pictureRef title k, some (url.get k)) :=
        List.mem_map.mpr ⟨k, List.mem_finRange k, by simp⟩
      exact hstopped ▸ hworks _ _ hmem
  next => cases h

/-! ## When the completion is called -/

/-- The storage after the five puts of `imageUpload`. -/
def putPictures (storage : Storage Data) (image : Vector Data 5) (title : String)
    (puts : Fin 5 → PutReply String) : Storage Data :=
  let put (k : Fin 5) := (pictureRef title k, image.get k, puts k)
  ((storage.putAll [put 0, put 1, put 2, put 3]).1.putAll [put 4]).1

/-- All five pictures have an encoding, the puts of the thumbnail and of the
first three pages succeed, and all lookups return a URL. -/
def PicturesStored (jpegData : Image → Option Data) (storage : Storage Data)
    (image : Vector Image 5) (title : String) (puts : Fin 5 → PutReply String)
    (urls : Fin 5 → Option String) : Prop :=
  ∃ data : Vector Data 5, (∀ k, jpegData (image.get k) = some (data.get k)) ∧
    (∀ k : Fin 5, k ≠ 4 → (puts k).ok = true) ∧
    ((putPictures storage data title puts).downloadURLs
      ((List.finRange 5).map fun k => (pictureRef title k, urls k))).2.isSome = true

theorem imageUpload_isSome (jpegData : Image → Option Data) (storage : Storage Data)
    (image : Vector Image 5) (title : String) (puts : Fin 5 → PutReply String)
    (urls : Fin 5 → Option String) :
    (imageUpload jpegData storage image title puts urls).2.isSome = true ↔
      PicturesStored jpegData storage image title puts urls := by
  unfold imageUpload
  split
  next hencoded =>
    obtain ⟨data, hdata⟩ := exists_vector hencoded
    have hget : ∀ k, (jpegData (image.get k)).get (hencoded k) = data.get k := fun k =>
      Option.get_of_eq_some _ (hdata k)
    have hputs : (storage.putAll [(pictureRef title 0, data.get 0, puts 0),
          (pictureRef title 1, data.get 1, puts 1), (pictureRef title 2, data.get 2, puts 2),
          (pictureRef title 3, data.get 3, puts 3)]).2 = true ↔
        (puts 0).ok = true ∧ (puts 1).ok = true ∧ (puts 2).ok = true ∧ (puts 3).ok = true := by
      rw [ObjectStore.putAll_ok_iff]
      simp
    simp only [hget]
    split
    next hok =>
      refine ⟨fun h => ⟨data, hdata, fun k hk => ?_, h⟩, ?_⟩
      · obtain ⟨h0, h1, h2, h3⟩ := hputs.mp hok
        match k with
        | 0 => exact h0
        | 1 => exact h1
        | 2 => exact h2
        | 3 => exact h3
        | 4 => exact absurd rfl hk
      · rintro ⟨data', hdata', -, hurls⟩
        have hsame : data' = data := Vector.ext fun i hi =>
          Option.some.inj ((hdata' ⟨i, hi⟩).symm.trans (hdata ⟨i, hi⟩))
        exact hsame ▸ hurls
    next hnot =>
      refine iff_of_false (fun h => by cases h) ?_
      rintro ⟨-, -, hall, -⟩
      exact hnot (hputs.mpr ⟨hall 0 (by decide), hall 1 (by decide), hall 2 (by decide),
        hall 3 (by decide)⟩)
  next hnone =>
    refine iff_of_false (fun h => by cases h) ?_
    rintro ⟨data, hdata, -⟩
    exact hnone fun k => by rw [hdata k]; rfl

/-- The completion of `imageUpload` gets five URLs. -/
theorem length_imageUpload {jpegData : Image → Option Data} {storage storage' : Storage Data}
    {image : Vector Image 5} {title : String} {puts : Fin 5 → PutReply String}
    {urls : Fin 5 → Option String} {url : List String}
    (h : imageUpload jpegData storage image title puts urls = (storage', some url)) :
    url.length = 5 := by
  unfold imageUpload at h
  split at h
  next hencoded =>
    simp only at h
    split at h
    next =>
      rw [ObjectStore.length_downloadURLs (congrArg Prod.snd h), List.length_map,
        List.length_finRange]
    next => cases h
  next => cases h

end ImageService

end Toontagram
