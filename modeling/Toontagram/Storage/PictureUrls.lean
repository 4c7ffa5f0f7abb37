import Toontagram.Storage.ImageService

/-!
# The URLs that an upload hands over

`ImageService.imageUpload` stops at the first put that fails, except that the
closure of the last one, page4, does not look at its error. The lookups that
follow need an object at each path, and at the path of page4 there may be one
that an earlier upload with the same title has left. `handsOver_iff` says that
this is all that can go wrong.
-/

namespace Toontagram

open Lib (ObjectStore PutReply)

namespace ImageService

variable {Image Data : Type} {jpegData : Image → Option Data} {storage : Storage Data}
  {image : Vector Image 5} {title : String} {puts : Fin 5 → PutReply String}
  {urls : Fin 5 → Option String}

/-- What is promised of a call of `imageUpload` and its result: the completion
gets five URLs in the order of the pictures, each of which serves the picture
that was passed for its position, and it is not called if a put has failed. -/
structure HandsOver (jpegData : Image → Option Data) (image : Vector Image 5)
    (puts : Fin 5 → PutReply String) (result : Storage Data × Option (List String)) : Prop where
  served : ∀ url, result.2 = some url → url.length = 5 ∧ ∀ k : Fin 5, ∃ u data,
    url[(k : Nat)]? = some u ∧ jpegData (image.get k) = some data ∧
      result.1.resolve u = some data
  failed : (∃ k, (puts k).ok = false) → result.2 = none

/-- A completion that is not called breaks no promise. -/
theorem HandsOver.of_none {result : Storage Data × Option (List String)} (h : result.2 = none) :
    HandsOver jpegData image puts result := by
  refine ⟨fun url hurl => ?_, fun _ => h⟩
  rw [h] at hurl
  cases hurl

/-- The URLs the server was asked for are all there if the completion is called. -/
theorem urls_isSome (h : PicturesStored jpegData storage image title puts urls) :
    ∀ k, (urls k).isSome = true := by
  obtain ⟨data, -, -, hurls⟩ := h
  obtain ⟨us, hus⟩ := Option.isSome_iff_exists.mp hurls
  obtain ⟨hmap, -⟩ := ObjectStore.downloadURLs_spec hus
  intro k
  have hk : urls k ∈ us.map some := by
    rw [← hmap, List.map_map]
    exact List.mem_map.mpr ⟨k, List.mem_finRange k, rfl⟩
  obtain ⟨u, -, hu⟩ := List.mem_map.mp hk
  rw [← hu]
  rfl

/-- With all puts successful the promise is kept. -/
theorem HandsOver.of_ok (hok : ∀ k, (puts k).ok = true) :
    HandsOver jpegData image puts (imageUpload jpegData storage image title puts urls) := by
  refine ⟨fun us hus => ?_, fun ⟨k, hk⟩ => ?_⟩
  · have hstored := (imageUpload_isSome jpegData storage image title puts urls).mp
      (Option.isSome_of_eq_some hus)
    obtain ⟨url, hurl⟩ := exists_vector (urls_isSome hstored)
    obtain rfl : urls = fun k => some (url.get k) := funext hurl
    obtain ⟨rfl, hup⟩ := imageUpload_spec hok (Prod.ext rfl hus)
    refine ⟨by simp, fun k => ?_⟩
    obtain ⟨data, hdata⟩ := Option.isSome_iff_exists.mp (hup.encoded k)
    obtain ⟨hworks, hpath⟩ := hup.url k
    refine ⟨url.get k, data, by simp [Vector.get], hdata, ?_⟩
    rw [ObjectStore.resolve_of_path hpath, if_neg hworks, hup.put k, hdata]
  · rw [hok k] at hk
    cases hk

/-- For every storage, title and pictures, and however the puts and the lookups
end: the promise is kept exactly if the put of page4 succeeds or the completion
is not called anyway, because a picture has no encoding, another put fails or a
lookup does. -/
theorem handsOver_iff (jpegData : Image → Option Data) (storage : Storage Data)
    (image : Vector Image 5) (title : String) (puts : Fin 5 → PutReply String)
    (urls : Fin 5 → Option String) :
    HandsOver jpegData image puts (imageUpload jpegData storage image title puts urls) ↔
      (puts 4).ok = true ∨ ¬ PicturesStored jpegData storage image title puts urls := by
  have hcalled := imageUpload_isSome jpegData storage image title puts urls
  constructor
  · intro h
    by_contra hnot
    obtain ⟨hput, hstored⟩ := not_or.mp hnot
    have hnone := h.failed ⟨4, Bool.eq_false_iff.mpr hput⟩
    have hsome := hcalled.mpr (not_not.mp hstored)
    rw [hnone] at hsome
    cases hsome
  · intro h
    by_cases hstored : PicturesStored jpegData storage image title puts urls
    · have hput := h.resolve_right (not_not.mpr hstored)
      obtain ⟨-, -, hothers, -⟩ := hstored
      refine HandsOver.of_ok fun k => ?_
      by_cases hk : k = 4
      · rw [hk]
        exact hput
      · exact hothers k hk
    · refine HandsOver.of_none (Option.not_isSome_iff_eq_none.mp ?_)
      exact fun hsome => hstored (hcalled.mp hsome)

/-- The storage after a cartoon named Monday has been uploaded. -/
def monday : Storage String :=
  (imageUpload some .empty (.ofFn !["a", "b", "c", "d", "e"]) "Monday" (fun _ => ⟨true, []⟩)
    (![some "a0", some "a1", some "a2", some "a3", some "a4"])).1

/-- Another cartoon named Monday is uploaded, and the put of page4 fails. -/
def mondayAgain : Storage String × Option (List String) :=
  imageUpload some monday (.ofFn !["v", "w", "x", "y", "z"]) "Monday"
    (fun k => ⟨(k : Nat) ≠ 4, []⟩)
    (![some "b0", some "b1", some "b2", some "b3", some "b4"])

/-- The completion is called, and the last URL serves page4 of the first one. -/
theorem handsOver_stale :
    mondayAgain.2 = some ["b0", "b1", "b2", "b3", "b4"] ∧
      mondayAgain.1.resolve "b4" = some "e" ∧
      ¬ HandsOver some (.ofFn !["v", "w", "x", "y", "z"]) (fun k => ⟨(k : Nat) ≠ 4, []⟩)
        mondayAgain := by
  refine ⟨by decide, by decide, fun h => ?_⟩
  have hnone := h.failed ⟨4, by decide⟩
  revert hnone
  decide

end ImageService

end Toontagram
