import Toontagram.Api.Call

/-!
# The services

`API/UserService.swift`, `API/CartoonService.swift`, `API/CommentService.swift`
and `API/FeedBackService.swift`: each function as the list of calls it issues at
once, and each of their closures as what it does when its answer arrives. A
function that returns at `guard let uid = Auth.auth().currentUser?.uid` issues
nothing.

Errors: the `FirestoreCompletion`s receive an `Error?` and none of the closures
below looks at it, so a closure of a write runs the same way whether the write
succeeded or failed. The closures of reads return at their `guard` when there
is no snapshot.

`CartoonService.uploadCartoon` first uploads five images, and
`UserService.editUserData` two; what is below is the closure that receives their
URLs.
-/

namespace Toontagram

/-- What the outside supplies when a closure runs: the identifier that
`document()` draws and the time that `Date()` reads. -/
structure Moment where
  autoID : DocID
  now : Timestamp
deriving DecidableEq, Repr

/-- What a closure assigns on its screen. -/
inductive Effect where
  /-- `self.user.fan = fan` on a profile screen. -/
  | profileFan (vc : ProfileID) (fan : Bool)
  /-- `self.cartoon?.didLike = like` on the cartoon screen. -/
  | didLike (like : Bool)
  /-- `self.newCartoon = newCartoon` on the edit screen, which is finished by it. -/
  | newCartoon (newCartoon : Cartoon)
deriving DecidableEq, Repr

/-- What a closure does: assignments on the screen and further calls. -/
structure Reaction where
  effects : List Effect := []
  calls : List Call := []

namespace UserService

/-- `UserService.fanUsers(uid:completion:)`. -/
def fanUsers (auth : Option Uid) (uid : Uid) (completion : ScreenCompletion) : List Call :=
  match auth with
  | none => []
  | some currentUid =>
    [⟨auth, .write (.setData ⟨.userStar currentUid, uid⟩ .empty)
      (.fanUsers uid currentUid completion)⟩]

/-- `UserService.antiFanUser(uid:completion:)`. -/
def antiFanUser (auth : Option Uid) (uid : Uid) (completion : ScreenCompletion) : List Call :=
  match auth with
  | none => []
  | some currentUid =>
    [⟨auth, .write (.delete ⟨.userStar currentUid, uid⟩)
      (.antiFanUser uid currentUid completion)⟩]

/-- The fields `editUserData` updates. -/
def edited (str : Vector String 2) (intro : String) : Dictionary := .ofList
  [("profileImageUrl", .string str[0]),
   ("profileBackImageUrl", .string str[1]),
   ("introduction", .string intro)]

/-- `UserService.editUserData(user:profile:backImage:intro:completion:)` from the
closure of `editUserProfileImage` on. -/
def editUserData (auth : Option Uid) (user : User) (str : Vector String 2) (intro : String) :
    List Call :=
  [⟨auth, .write (.updateData ⟨.user, user.uid⟩ (edited str intro)) (.screen .ignore)⟩]

end UserService

namespace CommentService

/-- The document `uploadComment` sets. -/
def data (comment : String) (user : User) (m : Moment) : Dictionary := .ofList
  [("uid", .string user.uid), ("comment", .string comment), ("time", .timestamp m.now),
   ("userProfilePenname", .string user.penname),
   ("userProfileImageUrl", .string user.profileImageUrl)]

/-- `CommentService.uploadComment(comment:cartoonID:user:completion:)`. The
signed-in account plays no part in it. -/
def uploadComment (auth : Option Uid) (comment : String) (cartoonID : DocID) (user : User)
    (m : Moment) (completion : ScreenCompletion) : List Call :=
  [⟨auth, .write (.setData ⟨.comments cartoonID, m.autoID⟩ (data comment user m))
    (.screen completion)⟩]

end CommentService

namespace FeedBackService

/-- The document `uploadFeedBack` sets. -/
def data (type : FeedBackType) (cartoon : Option Cartoon) (user : User) (m : Moment) :
    Dictionary :=
  let data : Dictionary := .ofList
    [("time", .timestamp m.now), ("uid", .string user.uid), ("type", .int type.rawValue),
     ("id", .string m.autoID), ("userProfileImageUrl", .string user.profileImageUrl),
     ("userName", .string user.penname)]
  match cartoon with
  | some cartoon => data.merge (.ofList
      [("cartoonID", .string cartoon.cartoonId),
       ("thumbnailImage", .string cartoon.thumbnailImage)])
  | none => data

/-- `FeedBackService.uploadFeedBack(toUid:type:cartoon:user:)`. -/
def uploadFeedBack (auth : Option Uid) (toUid : Uid) (type : FeedBackType)
    (cartoon : Option Cartoon) (user : User) (m : Moment) : List Call :=
  match auth with
  | none => []
  | some currentUid =>
    if toUid = currentUid then []
    else
      [⟨auth, .write (.setData ⟨.userFeedback toUid, m.autoID⟩ (data type cartoon user m))
        (.screen .ignore)⟩]

/-- The cartoon that a notification names. -/
theorem data_cartoonID (type : FeedBackType) (cartoon : Option Cartoon) (user : User) (m : Moment) :
    data type cartoon user m "cartoonID" = cartoon.map fun c => .string c.cartoonId := by
  cases cartoon <;> rfl

/-- Feedback to somebody else is one new document in his inbox. -/
theorem uploadFeedBack_eq {me toUid : Uid} (h : toUid ≠ me) (type : FeedBackType)
    (cartoon : Option Cartoon) (user : User) (m : Moment) :
    uploadFeedBack (some me) toUid type cartoon user m =
      [⟨some me, .write (.setData ⟨.userFeedback toUid, m.autoID⟩ (data type cartoon user m))
        (.screen .ignore)⟩] := by
  simp only [uploadFeedBack, if_neg h]

/-- Feedback that is sent is sent to somebody else. -/
theorem mem_uploadFeedBack {auth : Option Uid} {toUid : Uid} {type : FeedBackType}
    {cartoon : Option Cartoon} {user : User} {m : Moment} {k : Call}
    (hk : k ∈ uploadFeedBack auth toUid type cartoon user m) : ∃ me, auth = some me ∧ toUid ≠ me ∧
      k = ⟨auth, .write (.setData ⟨.userFeedback toUid, m.autoID⟩ (data type cartoon user m))
        (.screen .ignore)⟩ := by
  cases auth with
  | none => cases hk
  | some me =>
    by_cases hself : toUid = me
    · rw [uploadFeedBack, if_pos hself] at hk
      cases hk
    · rw [uploadFeedBack_eq hself, List.mem_singleton] at hk
      exact ⟨me, rfl, hself, hk⟩

end FeedBackService

namespace CartoonService

/-- `CartoonService.likeCartoon(cartoon:completion:)`. -/
def likeCartoon (auth : Option Uid) (cartoon : Cartoon) (completion : ScreenCompletion) :
    List Call :=
  match auth with
  | none => []
  | some uid =>
    [⟨auth, .write (.updateData ⟨.cartoon, cartoon.cartoonId⟩
        (.ofList [("like", .int (cartoon.like + 1))])) (.screen .ignore)⟩,
     ⟨auth, .write (.setData ⟨.cartoonLikes cartoon.cartoonId, uid⟩ .empty)
        (.likeCartoon uid cartoon.cartoonId completion)⟩]

/-- `CartoonService.unLikeCartoon(cartoon:completion:)`. -/
def unLikeCartoon (auth : Option Uid) (cartoon : Cartoon) (completion : ScreenCompletion) :
    List Call :=
  match auth with
  | none => []
  | some uid =>
    if cartoon.like > 0 then
      [⟨auth, .write (.updateData ⟨.cartoon, cartoon.cartoonId⟩
          (.ofList [("like", .int (cartoon.like - 1))])) (.screen .ignore)⟩,
       ⟨auth, .write (.delete ⟨.cartoonLikes cartoon.cartoonId, uid⟩)
          (.unLikeCartoon uid cartoon.cartoonId completion)⟩]
    else []

/-- `CartoonService.checkUserLikeCartoon(cartoon:completion:)`. -/
def checkUserLikeCartoon (auth : Option Uid) (cartoon : Cartoon) (callback : GetCallback) :
    List Call :=
  match auth with
  | none => []
  | some uid => [⟨auth, .getDocument ⟨.userLikes uid, cartoon.cartoonId⟩ callback⟩]

/-- `CartoonService.updateMainUserAfterFan(user:didFan:)`. -/
def updateMainUserAfterFan (auth : Option Uid) (user : User) (didFan : Bool) : List Call :=
  match auth with
  | none => []
  | some uid =>
    [⟨auth, .getDocuments ⟨.cartoon, some ("uid", .string user.uid)⟩
      (.updateMainUserAfterFan uid didFan)⟩]

/-- `CartoonService.updateMainUserAfterCartoon(cartoonID:)`. -/
def updateMainUserAfterCartoon (auth : Option Uid) (cartoonID : DocID) : List Call :=
  match auth with
  | none => []
  | some uid =>
    [⟨auth, .getDocuments { collection := .userFan uid }
      (.updateMainUserAfterCartoon uid cartoonID)⟩]

/-- The arguments of one call of `uploadCartoon` whose images are stored: `url`
are their URLs in the order of `ImageService.imageUpload`, `now` is the time
and `ref` the identifier `addDocument` draws. -/
structure Upload where
  title : String
  caption : String
  type : String
  user : User
  url : Vector String 5
  now : Timestamp
  ref : DocID
deriving DecidableEq, Repr

/-- The document `uploadCartoon` adds for the account `uid`. -/
def Upload.data (u : Upload) (uid : Uid) : Dictionary := .ofList
  [("title", .string u.title),
   ("time", .timestamp u.now),
   ("like", .int 0),
   ("uid", .string uid),
   ("thumbnailImage", .string u.url[0]),
   ("page1", .string u.url[1]),
   ("page2", .string u.url[2]),
   ("page3", .string u.url[3]),
   ("page4", .string u.url[4]),
   ("type", .string u.type),
   ("username", .string u.user.name),
   ("caption", .string u.caption),
   ("userProfileImageUrl", .string u.user.profileImageUrl)]

/-- `CartoonService.uploadCartoon(...)` from the closure of `imageUpload` on. -/
def uploadCartoon (auth : Option Uid) (u : Upload) : List Call :=
  match auth with
  | none => []
  | some uid =>
    ⟨auth, .write (.setData ⟨.cartoon, u.ref⟩ (u.data uid)) (.screen .ignore)⟩ ::
      updateMainUserAfterCartoon auth u.ref

/-- `CartoonService.editCartoon(type:cartoonId:title:caption:completion:)`. -/
def editCartoon (auth : Option Uid) (type : String) (cartoonId : DocID) (title caption : String) :
    List Call :=
  [⟨auth, .write (.updateData ⟨.cartoon, cartoonId⟩
      (.ofList [("title", .string title), ("type", .string type), ("caption", .string caption)]))
      (.screen .ignore)⟩,
   ⟨auth, .getDocument ⟨.cartoon, cartoonId⟩ .edited⟩]

/-- `CartoonService.deleteCartoon(cartoon:completion:)`. -/
def deleteCartoon (auth : Option Uid) (cartoon : Cartoon) : List Call :=
  [⟨auth, .write (.delete ⟨.cartoon, cartoon.cartoonId⟩) (.screen .ignore)⟩]

end CartoonService

namespace AuthService

/-- The arguments of the `setData` of `userRegister`: the texts of the
credentials, the URLs of the two stored pictures and the new account's `uid`. -/
structure Registration where
  email : String
  name : String
  penname : String
  introduction : String
  images : Vector String 2
  uid : Uid
deriving DecidableEq, Repr

/-- The document `userRegister` sets for the new account. -/
def Registration.data (r : Registration) : Dictionary := .ofList
  [("email", .string r.email),
   ("name", .string r.name),
   ("penname", .string r.penname),
   ("profileImageUrl", .string r.images[0]),
   ("profileBackImageUrl", .string r.images[1]),
   ("uid", .string r.uid),
   ("introduction", .string r.introduction)]

/-- The closure of `createUser` in `AuthService.userRegister(with:completion:)`,
which runs with the new account signed in. -/
def createdUser (r : Registration) : List Call :=
  [⟨some r.uid, .write (.setData ⟨.user, r.uid⟩ r.data) (.screen .ignore)⟩]

end AuthService

/-! ## The closures -/

/-- The completions of the screens. `auth` is the account of their device. -/
def ScreenCompletion.run (auth : Option Uid) (m : Moment) : ScreenCompletion → Reaction
  | .ignore => {}
  | .antiFanned vc user =>
    { effects := [.profileFan vc false]
      calls := CartoonService.updateMainUserAfterFan auth user false }
  | .fanned vc user currentUser =>
    { effects := [.profileFan vc true]
      calls := FeedBackService.uploadFeedBack auth user.uid .fan none currentUser m ++
        CartoonService.updateMainUserAfterFan auth user true }
  | .liked cartoon user =>
    { calls := FeedBackService.uploadFeedBack auth cartoon.uid .like (some cartoon) user m }
  | .commented cartoon user =>
    { calls := FeedBackService.uploadFeedBack auth cartoon.uid .comment (some cartoon) user m }

/-- The completions inside the services: the second write of each pair. -/
def Completion.run (auth : Option Uid) (m : Moment) : Completion → Reaction
  | .screen completion => completion.run auth m
  | .fanUsers uid currentUid completion =>
    { calls := [⟨auth, .write (.setData ⟨.userFan uid, currentUid⟩ .empty) (.screen completion)⟩] }
  | .antiFanUser uid currentUid completion =>
    { calls := [⟨auth, .write (.delete ⟨.userFan uid, currentUid⟩) (.screen completion)⟩] }
  | .likeCartoon uid cartoonId completion =>
    { calls := [⟨auth, .write (.setData ⟨.userLikes uid, cartoonId⟩ .empty) (.screen completion)⟩] }
  | .unLikeCartoon uid cartoonId completion =>
    { calls := [⟨auth, .write (.delete ⟨.userLikes uid, cartoonId⟩) (.screen completion)⟩] }

/-- The closures of the queries: the two loops that keep `user-feed`. -/
def QueryCallback.run (auth : Option Uid) (documents : List (DocID × Dictionary)) :
    QueryCallback → Reaction
  | .updateMainUserAfterFan uid didFan =>
    { calls := documents.map fun doc =>
        if didFan then
          ⟨auth, .write (.setData ⟨.userFeed uid, doc.1⟩ .empty) (.screen .ignore)⟩
        else
          ⟨auth, .write (.delete ⟨.userFeed uid, doc.1⟩) (.screen .ignore)⟩ }
  | .updateMainUserAfterCartoon uid cartoonID =>
    { calls := (documents.map fun doc =>
          ⟨auth, .write (.setData ⟨.userFeed doc.1, cartoonID⟩ .empty) (.screen .ignore)⟩) ++
        [⟨auth, .write (.setData ⟨.userFeed uid, cartoonID⟩ .empty) (.screen .ignore)⟩] }

/-- The closures of single documents. `snapshot` is the document, if it exists. -/
def GetCallback.run (now : Timestamp) (documentID : DocID) (snapshot : Option Dictionary) :
    GetCallback → Reaction
  | .didLike => { effects := [.didLike snapshot.isSome] }
  | .edited =>
    match snapshot with
    | none => {}
    | some data => { effects := [.newCartoon (Cartoon.init now documentID data)] }

/-! ## Answering a call -/

/-- How a call is answered: whether it succeeded, and the moment its closure runs. -/
structure Reply where
  ok : Bool
  moment : Moment
deriving DecidableEq, Repr

/-- `CartoonService.fetchCartoon(withCartoonID:)`: what its completion gets, if
it is called at all. -/
def CartoonService.fetchCartoon (s : Firestore) (cartoonID : DocID) (r : Reply) :
    Option Cartoon :=
  if r.ok then (s.lookup ⟨.cartoon, cartoonID⟩).map (Cartoon.init r.moment.now cartoonID)
  else none

/-- `UserService.fetchUser(with:completion:)`: what its completion gets, if it is
called at all. -/
def UserService.fetchUser (s : Firestore) (uid : Uid) (ok : Bool) : Option User :=
  if ok then (s.lookup ⟨.user, uid⟩).map User.init else none

/-- The effect of a call on the store and the reaction of its closure. -/
def Call.exec (k : Call) (r : Reply) (s : Firestore) : Firestore × Reaction :=
  match k.request with
  | .write w completion => (if r.ok then w.apply s else s, completion.run k.auth r.moment)
  | .getDocuments q callback =>
    (s, if r.ok then callback.run k.auth (q.documents s) else {})
  | .getDocument ref callback =>
    (s, if r.ok then callback.run r.moment.now ref.documentID (s.lookup ref) else {})

/-- What the call leaves to the question whether a document exists. -/
def Call.leavesAt (ref : DocRef) (k : Call) : Option Bool :=
  match k.request with
  | .write w _ => w.leavesAt ref
  | _ => none

/-- Which documents exist after an answer: an error changes nothing. -/
theorem Call.has_exec (k : Call) (r : Reply) (s : Firestore) (ref : DocRef) :
    Lib.Store.has (k.exec r s).1 ref =
      if r.ok then (k.leavesAt ref).getD (s.has ref) else s.has ref := by
  obtain ⟨auth, request⟩ := k
  cases request with
  | write w c =>
    simp only [Call.exec, Call.leavesAt]
    split
    next => exact Lib.Store.has_apply s w ref
    next => rfl
  | getDocuments q c => exact (ite_self _).symm
  | getDocument ref' c => exact (ite_self _).symm

theorem Call.has_exec_ok (k : Call) {r : Reply} {s : Firestore} (hr : r.ok = true)
    (ref : DocRef) : Lib.Store.has (k.exec r s).1 ref = (k.leavesAt ref).getD (s.has ref) := by
  rw [k.has_exec, if_pos hr]

/-! ## What the closures issue -/

theorem CartoonService.mem_updateMainUserAfterFan {auth : Option Uid} {user : User}
    {didFan : Bool} {k : Call} (hk : k ∈ updateMainUserAfterFan auth user didFan) :
    ∃ uid, k = ⟨auth, .getDocuments ⟨.cartoon, some ("uid", .string user.uid)⟩
      (.updateMainUserAfterFan uid didFan)⟩ := by
  unfold updateMainUserAfterFan at hk
  split at hk
  next => cases hk
  next uid => exact ⟨uid, List.mem_singleton.mp hk⟩

/-- A completion of a screen issues feedback or the query of a fan-out. -/
theorem ScreenCompletion.mem_run {c : ScreenCompletion} {auth : Option Uid} {m : Moment}
    {k : Call} (hk : k ∈ (c.run auth m).calls) :
    (∃ toUid id data,
      k = ⟨auth, .write (.setData ⟨.userFeedback toUid, id⟩ data) (.screen .ignore)⟩) ∨
    ∃ author uid didFan, k = ⟨auth, .getDocuments ⟨.cartoon, some ("uid", .string author)⟩
      (.updateMainUserAfterFan uid didFan)⟩ := by
  cases c with
  | ignore => cases hk
  | antiFanned vc user =>
    obtain ⟨uid, rfl⟩ := CartoonService.mem_updateMainUserAfterFan hk
    exact .inr ⟨_, uid, _, rfl⟩
  | fanned vc user currentUser =>
    rcases List.mem_append.mp hk with hk | hk
    · obtain ⟨-, -, -, rfl⟩ := FeedBackService.mem_uploadFeedBack hk
      exact .inl ⟨_, _, _, rfl⟩
    · obtain ⟨uid, rfl⟩ := CartoonService.mem_updateMainUserAfterFan hk
      exact .inr ⟨_, uid, _, rfl⟩
  | liked cartoon user | commented cartoon user =>
    simp only [run] at hk
    obtain ⟨-, -, -, rfl⟩ := FeedBackService.mem_uploadFeedBack hk
    exact .inl ⟨_, _, _, rfl⟩

/-- The loops of the queries put cartoons into feeds or take them out. -/
theorem QueryCallback.mem_run {c : QueryCallback} {auth : Option Uid}
    {documents : List (DocID × Dictionary)} {k : Call} (hk : k ∈ (c.run auth documents).calls) :
    ∃ b v x, k = ⟨auth, .write (.mark b ⟨.userFeed v, x⟩) (.screen .ignore)⟩ := by
  cases c with
  | updateMainUserAfterFan uid didFan =>
    obtain ⟨doc, -, rfl⟩ := List.mem_map.mp hk
    cases didFan with
    | true => exact ⟨true, uid, doc.1, rfl⟩
    | false => exact ⟨false, uid, doc.1, rfl⟩
  | updateMainUserAfterCartoon uid cartoonID =>
    rcases List.mem_append.mp hk with hk | hk
    · obtain ⟨doc, -, rfl⟩ := List.mem_map.mp hk
      exact ⟨true, doc.1, cartoonID, rfl⟩
    · exact ⟨true, uid, cartoonID, List.mem_singleton.mp hk⟩

/-- A closure of a single document issues nothing. -/
theorem GetCallback.calls_run (c : GetCallback) (now : Timestamp) (documentID : DocID)
    (snapshot : Option Dictionary) : (c.run now documentID snapshot).calls = [] := by
  cases c with
  | didLike => rfl
  | edited => cases snapshot <;> rfl

/-- What the closure of a read issues are writes of feeds. -/
theorem Call.mem_exec_read {k : Call} (hread : ∀ w c, k.request ≠ .write w c) {r : Reply}
    {s : Firestore} {k' : Call} (hk' : k' ∈ (k.exec r s).2.calls) :
    ∃ b v x, k' = ⟨k.auth, .write (.mark b ⟨.userFeed v, x⟩) (.screen .ignore)⟩ := by
  obtain ⟨auth, request⟩ := k
  cases request with
  | write w c => exact absurd rfl (hread w c)
  | getDocuments q c =>
    simp only [Call.exec] at hk'
    split at hk'
    next => exact QueryCallback.mem_run hk'
    next => cases hk'
  | getDocument ref c =>
    simp only [Call.exec] at hk'
    split at hk'
    next =>
      rw [GetCallback.calls_run] at hk'
      cases hk'
    next => cases hk'

/-- What closures issue, each with the account of the call they belong to. -/
inductive Spawned (auth : Option Uid) : Call → Prop where
  | feed (b : Bool) (uid : Uid) (cartoonID : DocID) :
      Spawned auth ⟨auth, .write (.mark b ⟨.userFeed uid, cartoonID⟩) (.screen .ignore)⟩
  | feedback (toUid : Uid) (id : DocID) (data : Dictionary) :
      Spawned auth ⟨auth, .write (.setData ⟨.userFeedback toUid, id⟩ data) (.screen .ignore)⟩
  | cartoons (author uid : Uid) (didFan : Bool) :
      Spawned auth ⟨auth, .getDocuments ⟨.cartoon, some ("uid", .string author)⟩
        (.updateMainUserAfterFan uid didFan)⟩
  | fan (b : Bool) (uid currentUid : Uid) (c : ScreenCompletion) :
      Spawned auth ⟨auth, .write (.mark b ⟨.userFan uid, currentUid⟩) (.screen c)⟩
  | likes (b : Bool) (uid : Uid) (cartoonId : DocID) (c : ScreenCompletion) :
      Spawned auth ⟨auth, .write (.mark b ⟨.userLikes uid, cartoonId⟩) (.screen c)⟩

/-- The completion of a write: what a screen issues, or the second write of a
pair. -/
theorem Completion.spawned_run {c : Completion} {auth : Option Uid} {m : Moment} {k : Call}
    (hk : k ∈ (c.run auth m).calls) : Spawned auth k := by
  cases c with
  | screen c =>
    rcases ScreenCompletion.mem_run hk with ⟨toUid, id, data, rfl⟩ | ⟨author, uid, didFan, rfl⟩
    · exact .feedback toUid id data
    · exact .cartoons author uid didFan
  | fanUsers uid currentUid c => exact List.mem_singleton.mp hk ▸ .fan true uid currentUid c
  | antiFanUser uid currentUid c => exact List.mem_singleton.mp hk ▸ .fan false uid currentUid c
  | likeCartoon uid cartoonId c => exact List.mem_singleton.mp hk ▸ .likes true uid cartoonId c
  | unLikeCartoon uid cartoonId c => exact List.mem_singleton.mp hk ▸ .likes false uid cartoonId c

/-- What the closure of a call issues. -/
theorem Call.spawned_exec {k k' : Call} {r : Reply} {s : Firestore}
    (hk' : k' ∈ (k.exec r s).2.calls) : Spawned k.auth k' := by
  by_cases hread : ∀ w c, k.request ≠ .write w c
  · obtain ⟨b, uid, cartoonID, rfl⟩ := Call.mem_exec_read hread hk'
    exact .feed b uid cartoonID
  · push Not at hread
    obtain ⟨w, c, hwrite⟩ := hread
    simp only [Call.exec, hwrite] at hk'
    exact Completion.spawned_run hk'

end Toontagram
