import Toontagram.Model.Records

/-!
# Requests and the closures that wait for their answers

`UTIL/COLLECTION.swift` and the shape of every call the services make to
Firestore. A closure is its constructor, named after the function it stands
in, with the variables it captures; what it does when it runs is
`Api/Services.lean`. Two levels are enough: a closure inside a service
(`Completion`, `QueryCallback`, `GetCallback`) may hold the completion its
caller passed (`ScreenCompletion`), and no screen passes a service's closure.

Every call carries the account signed in on the device that issues it, the
value of `Auth.auth().currentUser?.uid` there: the closures read it again when
they run.
-/

namespace Toontagram

/-- The collections of `COLLECTION.swift` and their subcollections. -/
inductive Collection where
  /-- `COLLECTION_USER` -/
  | user
  /-- `COLLECTION_CARTOON` -/
  | cartoon
  /-- `COLLECTION_FANS.document(uid).collection("user_fan")` -/
  | userFan (uid : Uid)
  /-- `COLLECTION_STAR.document(uid).collection("user_star")` -/
  | userStar (uid : Uid)
  /-- `COLLECTION_USER.document(uid).collection("user-feed")` -/
  | userFeed (uid : Uid)
  /-- `COLLECTION_USER.document(uid).collection("user-likes")` -/
  | userLikes (uid : Uid)
  /-- `COLLECTION_CARTOON.document(cartoonId).collection("cartoon-likes")` -/
  | cartoonLikes (cartoonId : DocID)
  /-- `COLLECTION_FEEDBACK.document(uid).collection("user-feedback")` -/
  | userFeedback (uid : Uid)
  /-- `COLLECTION_CARTOON.document(cartoonID).collection("comments")` -/
  | comments (cartoonID : DocID)
deriving DecidableEq, Repr

abbrev DocRef := Lib.DocRef Collection
abbrev Firestore := Lib.Store Collection Value
abbrev Write := Lib.DocWrite Collection Value

/-- `collection.getDocuments`, with `whereField(_:isEqualTo:)` or without. -/
structure Query where
  collection : Collection
  whereField : Option (String × Value) := none
deriving DecidableEq, Repr

/-- The documents a query returns. -/
def Query.documents (q : Query) (s : Firestore) : List (DocID × Dictionary) :=
  match q.whereField with
  | none => s.documents q.collection
  | some (field, value) => (s.documents q.collection).filter fun d => d.2 field = some value

/-- A profile screen (`ProfileCollectionViewController`) on some device. -/
abbrev ProfileID := Nat

/-- What the screens pass as the `completion` of a service. -/
inductive ScreenCompletion where
  /-- A closure that only touches labels, images and the loader. -/
  | ignore
  /-- `header(_:didTapButton:)` of the profile screen, the `antiFanUser` branch. -/
  | antiFanned (vc : ProfileID) (user : User)
  /-- `header(_:didTapButton:)` of the profile screen, the `fanUsers` branch. -/
  | fanned (vc : ProfileID) (user currentUser : User)
  /-- `cell(_:didLike:)` of the cartoon screen, the `likeCartoon` branch. -/
  | liked (cartoon : Cartoon) (user : User)
  /-- `inputView(_:loadComment:)` of the comment screen. -/
  | commented (cartoon : Cartoon) (user : User)
deriving DecidableEq, Repr

/-- What runs when a write is acknowledged: `FirestoreCompletion`. -/
inductive Completion where
  | screen (completion : ScreenCompletion)
  | fanUsers (uid currentUid : Uid) (completion : ScreenCompletion)
  | antiFanUser (uid currentUid : Uid) (completion : ScreenCompletion)
  | likeCartoon (uid : Uid) (cartoonId : DocID) (completion : ScreenCompletion)
  | unLikeCartoon (uid : Uid) (cartoonId : DocID) (completion : ScreenCompletion)
deriving DecidableEq, Repr

/-- What runs when a query is answered. -/
inductive QueryCallback where
  | updateMainUserAfterFan (uid : Uid) (didFan : Bool)
  | updateMainUserAfterCartoon (uid : Uid) (cartoonID : DocID)
deriving DecidableEq, Repr

/-- What runs when a single document is answered. -/
inductive GetCallback where
  /-- `checkUserLikeCartoon` of the cartoon screen. -/
  | didLike
  /-- `fetchCartoon` called by `editCartoon`. -/
  | edited
deriving DecidableEq, Repr

/-- A request to Firestore with the closure that receives the answer. -/
inductive Request where
  | write (write : Write) (completion : Completion)
  | getDocuments (query : Query) (callback : QueryCallback)
  | getDocument (ref : DocRef) (callback : GetCallback)

/-- A request and the account of the device that issues it. -/
structure Call where
  auth : Option Uid
  request : Request

/-- The document a call writes. -/
def Call.writes (k : Call) : Option DocRef :=
  match k.request with
  | .write w _ => some w.ref
  | _ => none

end Toontagram
