import Toontagram.Api.Services

/-!
# What is written is what is read

The services write a document as a dictionary with string keys, the records of
`MODEL/*.swift` read it by their own lists of keys and casts, and a key or a
type that drifts apart is filled with a default without an error. Here the two
sides meet, one lemma for each record: `User.init_data`, `Cartoon.init_data`,
`Comment.init_data`, `FeedBack.init_data`. Every field comes back, whatever the
texts, numbers and times are, so no default of a decoder is ever used on a
document the app has written, but for the cartoon of a notification that has
none.

`decoded_of_written` says the same of the calls: the document is read from a
store in which the write of the service was applied.
-/

namespace Toontagram

open Lib (Store)

/-! ## The four records -/

/-- A profile, from the document of its registration. -/
theorem User.init_data (r : AuthService.Registration) :
    User.init r.data =
      { email := r.email, penname := r.penname, name := r.name, profileImageUrl := r.images.get 0,
        backgroundImageUrl := r.images.get 1, introduction := r.introduction, uid := r.uid } :=
  rfl

/-- A cartoon, from the document of its upload. -/
theorem Cartoon.init_data (u : CartoonService.Upload) (uid : Uid) (now : Timestamp)
    (cartoonId : DocID) :
    Cartoon.init now cartoonId (u.data uid) =
      { title := u.title, username := u.user.name, thumbnailImage := u.url.get 0,
        page1 := u.url.get 1, page2 := u.url.get 2, page3 := u.url.get 3, page4 := u.url.get 4,
        like := 0, uid := uid, time := u.now, cartoonId := cartoonId, type := u.type,
        caption := u.caption, userProfileImageUrl := u.user.profileImageUrl } :=
  rfl

/-- A notification: a type comes back from its number, and the cartoon is there
or is empty. -/
theorem FeedBack.init_data (type : FeedBackType) (cartoon : Option Cartoon) (user : User)
    (m : Moment) (now : Timestamp) :
    FeedBack.init now (FeedBackService.data type cartoon user m) =
      { uid := user.uid, cartoonID := some ((cartoon.map (·.cartoonId)).getD ""),
        thumbnailImage := some ((cartoon.map (·.thumbnailImage)).getD ""), time := m.now,
        type := type, id := m.autoID, userProfileImageUrl := user.profileImageUrl,
        userName := user.penname } := by
  cases cartoon with
  | none => cases type <;> rfl
  | some cartoon => cases type <;> rfl

/-! ## Through the store -/

/-- Each service that writes a record issues one write of it, and the document
read after the write decodes to the record, with nothing lost. -/
theorem decoded_of_written (s : Firestore) (now : Timestamp) :
    (∀ r : AuthService.Registration, ∃ w c,
      AuthService.createdUser r = [⟨some r.uid, .write w c⟩] ∧
      ((w.apply s).lookup ⟨.user, r.uid⟩).map User.init =
        some { email := r.email, penname := r.penname, name := r.name,
               profileImageUrl := r.images.get 0, backgroundImageUrl := r.images.get 1,
               introduction := r.introduction, uid := r.uid }) ∧
    (∀ (u : CartoonService.Upload) (uid : Uid), ∃ w c,
      CartoonService.uploadCartoon (some uid) u =
        ⟨some uid, .write w c⟩ :: CartoonService.updateMainUserAfterCartoon (some uid) u.ref ∧
      ((w.apply s).lookup ⟨.cartoon, u.ref⟩).map (Cartoon.init now u.ref) =
        some { title := u.title, username := u.user.name, thumbnailImage := u.url.get 0,
               page1 := u.url.get 1, page2 := u.url.get 2, page3 := u.url.get 3,
               page4 := u.url.get 4, like := 0, uid := uid, time := u.now, cartoonId := u.ref,
               type := u.type, caption := u.caption,
               userProfileImageUrl := u.user.profileImageUrl }) ∧
    (∀ (auth : Option Uid) (comment : String) (cartoonID : DocID) (user : User) (m : Moment)
        (completion : ScreenCompletion), ∃ w c,
      CommentService.uploadComment auth comment cartoonID user m completion =
        [⟨auth, .write w c⟩] ∧
      ((w.apply s).lookup ⟨.comments cartoonID, m.autoID⟩).map (Comment.init now) =
        some { uid := user.uid, userProfilePenname := user.penname,
               userProfileImageUrl := user.profileImageUrl, time := m.now,
               comment := comment }) ∧
    ∀ (me toUid : Uid) (type : FeedBackType) (cartoon : Option Cartoon) (user : User)
        (m : Moment), toUid ≠ me → ∃ w c,
      FeedBackService.uploadFeedBack (some me) toUid type cartoon user m =
        [⟨some me, .write w c⟩] ∧
      ((w.apply s).lookup ⟨.userFeedback toUid, m.autoID⟩).map (FeedBack.init now) =
        some { uid := user.uid, cartoonID := some ((cartoon.map (·.cartoonId)).getD ""),
               thumbnailImage := some ((cartoon.map (·.thumbnailImage)).getD ""), time := m.now,
               type := type, id := m.autoID, userProfileImageUrl := user.profileImageUrl,
               userName := user.penname } := by
  refine ⟨fun r => ⟨_, _, rfl, ?_⟩, fun u uid => ⟨_, _, rfl, ?_⟩,
    fun auth comment cartoonID user m completion => ⟨_, _, rfl, ?_⟩,
    fun me toUid type cartoon user m hne =>
      ⟨_, _, FeedBackService.uploadFeedBack_eq hne type cartoon user m, ?_⟩⟩
  · rw [Store.lookup_apply_setData_self, Option.map_some, User.init_data]
  · rw [Store.lookup_apply_setData_self, Option.map_some, Cartoon.init_data]
  · rw [Store.lookup_apply_setData_self]
    rfl
  · rw [Store.lookup_apply_setData_self, Option.map_some, FeedBack.init_data]

/-- `decoded_of_written` for a fan's notification, which has no cartoon. -/
theorem decoded_of_written_fan : ∃ w c,
    FeedBackService.uploadFeedBack (some "reader") "author" .fan none
        { User.init .empty with uid := "reader", penname := "R" } ⟨"n", ⟨1, 0⟩⟩ =
      [⟨some "reader", .write w c⟩] ∧
    ((w.apply (∅ : Firestore)).lookup ⟨.userFeedback "author", "n"⟩).map
        (FeedBack.init ⟨2, 0⟩) =
      some { uid := "reader", cartoonID := some "", thumbnailImage := some "", time := ⟨1, 0⟩,
             type := .fan, id := "n", userProfileImageUrl := "", userName := "R" } :=
  (decoded_of_written ∅ ⟨2, 0⟩).2.2.2 "reader" "author" .fan none
    { User.init .empty with uid := "reader", penname := "R" } ⟨"n", ⟨1, 0⟩⟩ (by decide)

end Toontagram
