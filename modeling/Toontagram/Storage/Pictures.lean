import Toontagram.Api.Device
import Toontagram.Storage.ImageService

/-!
# The pictures of every cartoon

Sequences of `CartoonService.uploadCartoon` calls that succeed, by any users.
The document of a cartoon stores five URLs, and a URL serves whatever object is
at its path now, so a cartoon keeps its pictures as long as nobody puts other
pictures at the same paths and its URLs are not retired.

`Cloud.Sound` says how documents, URLs and objects hang together after any
sequence of uploads. `Cloud.kept_step` is the step lemma: after an upload all
cartoons have their pictures exactly if they had them before and the upload is
`Harmless`; `pictures_kept_iff` is the same for whole sequences.
-/

namespace Toontagram

open Lib (Along ObjectStore PutReply run run_always_iff_along)

variable {Image Data : Type}

/-- One call of `uploadCartoon` by the user `uid`, and what the server decides:
the URLs retired by each put, the URLs looked up, and the identifier of the
document. `image[0]` is the thumbnail. -/
structure UploadCall (Image : Type) where
  uid : Uid
  title : String
  caption : String
  image : Vector Image 5
  user : User
  type : String
  now : Timestamp
  ref : DocID
  stop : Vector (List String) 5
  url : Vector String 5

/-- What the closure of `imageUpload` works with. -/
def UploadCall.upload (e : UploadCall Image) (url : Vector String 5) : CartoonService.Upload :=
  ⟨e.title, e.caption, e.type, e.user, url, e.now, e.ref⟩

/-- Firestore, Storage, and the calls that have created a cartoon. -/
structure Cloud (Image Data : Type) where
  firestore : Firestore
  storage : Storage Data
  created : List (UploadCall Image)

namespace Cloud

/-- The fields of a cartoon's document that hold its URLs. -/
def pictureFields : Vector String 5 := #v["thumbnailImage", "page1", "page2", "page3", "page4"]

/-- What the stored URL of a picture serves. -/
def picture (s : Cloud Image Data) (id : DocID) (k : Fin 5) : Option Data :=
  ((s.firestore.lookup ⟨.cartoon, id⟩).bind fun data =>
    Dictionary.string? data (pictureFields.get k)).bind
    s.storage.resolve

/-- A call of `uploadCartoon` all of whose steps succeed. The document is added
under an identifier that names no cartoon. -/
def step (jpegData : Image → Option Data) (s : Cloud Image Data) (e : UploadCall Image) :
    Option (Cloud Image Data) :=
  if s.firestore.has ⟨.cartoon, e.ref⟩ then none
  else
    match ImageService.imageUpload jpegData s.storage e.image e.title
      (fun k => ⟨true, e.stop.get k⟩) (fun k => some (e.url.get k)) with
    | (_, none) => none
    | (storage, some url) =>
      if h : url.length = 5 then
        some
          { firestore := (CartoonService.uploadCartoon (some e.uid)
              (e.upload ⟨url.toArray, h⟩)).foldl (fun s k => k.effect s) s.firestore
            storage := storage
            created := s.created ++ [e] }
      else none

variable {jpegData : Image → Option Data}

/-- What a successful upload leaves. -/
theorem step_cases {s s' : Cloud Image Data} {e : UploadCall Image}
    (h : s.step jpegData e = some s') :
    s.firestore.has ⟨.cartoon, e.ref⟩ = false ∧
    ImageService.Uploaded jpegData s.storage s'.storage e.image e.title
      (fun k => ⟨true, e.stop.get k⟩) e.url ∧
    s'.firestore = (Lib.DocWrite.setData ⟨.cartoon, e.ref⟩ ((e.upload e.url).data e.uid)).apply
      s.firestore ∧
    s'.created = s.created ++ [e] := by
  unfold step at h
  split at h
  next => cases h
  next hfresh =>
    split at h
    next => cases h
    next storage url himage =>
      split at h
      next hlength =>
        obtain ⟨hurl, huploaded⟩ := ImageService.imageUpload_spec (fun _ => rfl) himage
        subst hurl
        cases h
        exact ⟨by simpa using hfresh, huploaded, rfl, rfl⟩
      next => cases h

/-! ## The invariant -/

/-- The document of every cartoon holds the URLs of its call, they are the URLs
of its paths, and at each path is what the last call with this path put there. -/
structure Sound (jpegData : Image → Option Data) (s : Cloud Image Data) : Prop where
  document : ∀ c ∈ s.created,
    s.firestore.lookup ⟨.cartoon, c.ref⟩ = some ((c.upload c.url).data c.uid)
  path : ∀ c ∈ s.created, ∀ k : Fin 5,
    s.storage.paths.lookup (c.url.get k) = some (ImageService.pictureRef c.title k)
  encoded : ∀ c ∈ s.created, ∀ k : Fin 5, (jpegData (c.image.get k)).isSome
  last : ∀ c ∈ s.created, ∃ c' ∈ s.created,
    StoragePath.standardized c'.title = StoragePath.standardized c.title ∧
    ∀ k : Fin 5, s.storage.objects.lookup (ImageService.pictureRef c.title k) =
      jpegData (c'.image.get k)

/-- The stored URLs of a picture. -/
theorem string?_pictureFields (u : CartoonService.Upload) (uid : Uid) :
    ∀ k : Fin 5, (u.data uid).string? (pictureFields.get k) = some (u.url.get k)
  | 0 => rfl
  | 1 => rfl
  | 2 => rfl
  | 3 => rfl
  | 4 => rfl

/-- What the picture of a cartoon serves. -/
theorem Sound.picture_eq {s : Cloud Image Data} (hs : s.Sound jpegData) {c : UploadCall Image}
    (hc : c ∈ s.created) (k : Fin 5) :
    s.picture c.ref k = if c.url.get k ∈ s.storage.stopped then none
      else s.storage.objects.lookup (ImageService.pictureRef c.title k) := by
  rw [picture, hs.document c hc, Option.bind_some, string?_pictureFields, Option.bind_some]
  exact ObjectStore.resolve_of_path (hs.path c hc k)

/-- At the paths of the same title as the upload's are its pictures. -/
theorem lookup_same_title {storage storage' : Storage Data} {e c : UploadCall Image}
    {puts : Fin 5 → PutReply String} {url : Vector String 5}
    (hup : ImageService.Uploaded jpegData storage storage' e.image e.title puts url)
    (hc : StoragePath.standardized c.title = StoragePath.standardized e.title) (k : Fin 5) :
    storage'.objects.lookup (ImageService.pictureRef c.title k) = jpegData (e.image.get k) := by
  rw [ImageService.pictureRef_inj.mpr ⟨hc, rfl⟩]
  exact hup.put k

/-- At the paths of another title nothing has changed. -/
theorem lookup_other_title {storage storage' : Storage Data} {e c : UploadCall Image}
    {puts : Fin 5 → PutReply String} {url : Vector String 5}
    (hup : ImageService.Uploaded jpegData storage storage' e.image e.title puts url)
    (hc : StoragePath.standardized c.title ≠ StoragePath.standardized e.title) (k : Fin 5) :
    storage'.objects.lookup (ImageService.pictureRef c.title k) =
      storage.objects.lookup (ImageService.pictureRef c.title k) :=
  hup.other _ fun _ h => hc (ImageService.pictureRef_inj.mp h).1

theorem Sound.step {s s' : Cloud Image Data} {e : UploadCall Image} (hs : s.Sound jpegData)
    (hstep : s.step jpegData e = some s') : s'.Sound jpegData := by
  obtain ⟨hfresh, hup, hfirestore, hcreated⟩ := step_cases hstep
  have hnew : ∀ c ∈ s'.created, c ∈ s.created ∨ c = e := by
    intro c hc
    rw [hcreated] at hc
    exact (List.mem_append.mp hc).imp_right List.mem_singleton.mp
  have he : e ∈ s'.created := hcreated ▸ List.mem_append_right _ (List.mem_singleton_self e)
  refine ⟨fun c hc => ?_, fun c hc k => ?_, fun c hc k => ?_, fun c hc => ?_⟩
  · rw [hfirestore, Lib.Store.lookup_apply_setData]
    rcases hnew c hc with hc | rfl
    · rw [if_neg, hs.document c hc]
      intro href
      have hhas : s.firestore.has ⟨.cartoon, e.ref⟩ = true := by
        rw [href, Lib.Store.has, hs.document c hc]
        rfl
      rw [hhas] at hfresh
      cases hfresh
    · exact if_pos rfl
  · rcases hnew c hc with hc | rfl
    · exact hup.paths _ _ (hs.path c hc k)
    · exact (hup.url k).2
  · rcases hnew c hc with hc | rfl
    · exact hs.encoded c hc k
    · exact hup.encoded k
  · by_cases htitle : StoragePath.standardized c.title = StoragePath.standardized e.title
    · exact ⟨e, he, htitle.symm, lookup_same_title hup htitle⟩
    · rcases hnew c hc with hc | rfl
      · obtain ⟨c', hc', htitle', hlast⟩ := hs.last c hc
        refine ⟨c', hcreated ▸ List.mem_append_left _ hc', htitle', fun k => ?_⟩
        rw [lookup_other_title hup htitle, hlast]
      · exact absurd rfl htitle

/-! ## Keeping the pictures -/

/-- Every stored URL of every cartoon serves the picture supplied for it. -/
def Kept (jpegData : Image → Option Data) (s : Cloud Image Data) : Prop :=
  ∀ c ∈ s.created, ∀ k : Fin 5,
    (jpegData (c.image.get k)).isSome ∧ s.picture c.ref k = jpegData (c.image.get k)

/-- An upload whose title, up to empty components, is new; or the pictures it
puts at the paths of an earlier cartoon are the same, and no URL of that cartoon
is retired. -/
def Harmless (jpegData : Image → Option Data) (s : Cloud Image Data) (e : UploadCall Image) :
    Prop :=
  ∀ c ∈ s.created, StoragePath.standardized c.title = StoragePath.standardized e.title →
    ∀ k : Fin 5, jpegData (c.image.get k) = jpegData (e.image.get k) ∧ c.url.get k ∉ e.stop.get k

instance [DecidableEq Data] (s : Cloud Image Data) (e : UploadCall Image) :
    Decidable (s.Harmless jpegData e) :=
  inferInstanceAs (Decidable (∀ c ∈ s.created,
    StoragePath.standardized c.title = StoragePath.standardized e.title →
      ∀ k : Fin 5,
        jpegData (c.image.get k) = jpegData (e.image.get k) ∧ c.url.get k ∉ e.stop.get k))

instance [DecidableEq Data] (s : Cloud Image Data) : Decidable (s.Kept jpegData) :=
  inferInstanceAs (Decidable (∀ c ∈ s.created, ∀ k : Fin 5,
    (jpegData (c.image.get k)).isSome ∧ s.picture c.ref k = jpegData (c.image.get k)))

/-- A picture is kept if its URL works and the object is the one supplied. -/
theorem Sound.kept_iff {s : Cloud Image Data} (hs : s.Sound jpegData) :
    s.Kept jpegData ↔ ∀ c ∈ s.created, ∀ k : Fin 5, c.url.get k ∉ s.storage.stopped ∧
      s.storage.objects.lookup (ImageService.pictureRef c.title k) = jpegData (c.image.get k) := by
  refine forall₂_congr fun c hc => forall_congr' fun k => ?_
  rw [and_iff_right (hs.encoded c hc k), hs.picture_eq hc]
  split
  next hstopped =>
    refine ⟨fun h => ?_, fun h => absurd hstopped h.1⟩
    have := hs.encoded c hc k
    rw [← h] at this
    cases this
  next hworks => exact ⟨fun h => ⟨hworks, h⟩, fun h => h.2⟩

/-- The step lemma. If the pictures are right afterwards, all cartoons with the
title of the upload have its pictures, so nothing was overwritten; a URL that
works has always worked. -/
theorem kept_step {s s' : Cloud Image Data} {e : UploadCall Image} (hs : s.Sound jpegData)
    (hstep : s.step jpegData e = some s') :
    s'.Kept jpegData ↔ s.Kept jpegData ∧ s.Harmless jpegData e := by
  rw [(hs.step hstep).kept_iff, hs.kept_iff]
  obtain ⟨-, hup, -, hcreated⟩ := step_cases hstep
  have hold : ∀ c ∈ s.created, c ∈ s'.created := fun c hc => hcreated ▸ List.mem_append_left _ hc
  constructor
  · intro hkept
    have hsame : ∀ c ∈ s.created,
        StoragePath.standardized c.title = StoragePath.standardized e.title → ∀ k : Fin 5,
        jpegData (c.image.get k) = jpegData (e.image.get k) := fun c hc htitle k =>
      (hkept c (hold c hc) k).2.symm.trans (lookup_same_title hup htitle k)
    refine ⟨fun c hc k => ⟨fun h => ?_, ?_⟩,
      fun c hc htitle k => ⟨hsame c hc htitle k, fun h => ?_⟩⟩
    · exact (hkept c (hold c hc) k).1 ((hup.stopped _).mpr (.inl h))
    · by_cases htitle : StoragePath.standardized c.title = StoragePath.standardized e.title
      · obtain ⟨c', hc', htitle', hlast⟩ := hs.last c hc
        rw [hlast, hsame c hc htitle k, hsame c' hc' (htitle'.trans htitle) k]
      · rw [← lookup_other_title hup htitle]
        exact (hkept c (hold c hc) k).2
    · refine (hkept c (hold c hc) k).1 ((hup.stopped _).mpr (.inr ⟨k, h, ?_⟩))
      rw [hs.path c hc k, ImageService.pictureRef_inj.mpr ⟨htitle, rfl⟩]
  · rintro ⟨hkept, hharmless⟩ c hc k
    rw [hcreated] at hc
    rcases List.mem_append.mp hc with hc | hc
    · refine ⟨fun h => ?_, ?_⟩
      · rcases (hup.stopped _).mp h with h | ⟨k', hmem, hpath⟩
        · exact (hkept c hc k).1 h
        · rw [hs.path c hc k] at hpath
          obtain ⟨htitle, rfl⟩ := ImageService.pictureRef_inj.mp (Option.some.inj hpath)
          exact (hharmless c hc htitle k).2 hmem
      · by_cases htitle : StoragePath.standardized c.title = StoragePath.standardized e.title
        · rw [lookup_same_title hup htitle, (hharmless c hc htitle k).1]
        · rw [lookup_other_title hup htitle]
          exact (hkept c hc k).2
    · obtain rfl := List.mem_singleton.mp hc
      exact ⟨(hup.url k).1, hup.put k⟩

/-- A cloud nobody has uploaded to in the run. -/
def opened (firestore : Firestore) (storage : Storage Data) : Cloud Image Data :=
  ⟨firestore, storage, []⟩

theorem Sound.opened (firestore : Firestore) (storage : Storage Data) :
    (opened firestore storage : Cloud Image Data).Sound jpegData :=
  ⟨fun c hc => (by cases hc), fun c hc => (by cases hc), fun c hc => (by cases hc),
    fun c hc => (by cases hc)⟩

end Cloud

/-- For every sequence of successful uploads, whatever was stored before: after
each of them all cartoons created so far have the pictures supplied for them,
if and only if each upload is harmless when it comes. -/
theorem pictures_kept_iff {jpegData : Image → Option Data} {firestore : Firestore}
    {storage : Storage Data} {es : List (UploadCall Image)} {t : Cloud Image Data}
    (h : run (Cloud.step jpegData) (.opened firestore storage) es = some t) :
    (∀ es₁ es₂ s, es = es₁ ++ es₂ →
      run (Cloud.step jpegData) (.opened firestore storage) es₁ = some s → s.Kept jpegData) ↔
      Along (Cloud.step jpegData) (Cloud.Harmless jpegData) (.opened firestore storage) es := by
  refine run_always_iff_along (P := Cloud.Sound jpegData) (Q := Cloud.Kept jpegData)
    (fun _ _ _ hs => hs.step) (fun s e s' hs hkept hstep => ?_) es (.opened firestore storage)
    (fun c hc => (by cases hc)) h
  exact (Cloud.kept_step hs hstep).trans (and_iff_right hkept)

/-- Two users and two cartoons; the server retires no URL. -/
def firstUpload (title : String) : UploadCall String :=
  ⟨"author", title, "", #v["a", "b", "c", "d", "e"], User.init .empty, "DAILY", ⟨1, 0⟩, "c",
    Vector.replicate 5 [], #v["c0", "c1", "c2", "c3", "c4"]⟩

def secondUpload (title : String) : UploadCall String :=
  ⟨"reader", title, "", #v["v", "w", "x", "y", "z"], User.init .empty, "DAILY", ⟨2, 0⟩, "d",
    Vector.replicate 5 [], #v["d0", "d1", "d2", "d3", "d4"]⟩

/-- An upload with the title of another user's cartoon takes its pictures away. -/
theorem pictures_lost_same_title : ∃ t,
    run (Cloud.step some) (.opened ∅ .empty) [firstUpload "Monday", secondUpload "Monday"] =
      some t ∧ ¬ t.Kept some :=
  ⟨(run (Cloud.step some) (.opened ∅ .empty) [firstUpload "Monday", secondUpload "Monday"]).get
    (by decide), (Option.some_get _).symm, by decide⟩

/-- `pictures_kept_iff` for two titles. -/
theorem pictures_kept_iff_titles : ∃ t,
    run (Cloud.step some) (.opened ∅ .empty) [firstUpload "Monday", secondUpload "Tuesday"] =
      some t ∧ t.Kept some := by
  have h : run (Cloud.step some) (.opened ∅ .empty)
      [firstUpload "Monday", secondUpload "Tuesday"] = some ((run (Cloud.step some)
        (.opened ∅ .empty) [firstUpload "Monday", secondUpload "Tuesday"]).get (by decide)) :=
    (Option.some_get _).symm
  exact ⟨_, h, (pictures_kept_iff h).mpr (by decide) _ [] _ (List.append_nil _).symm h⟩

end Toontagram
