import Toontagram.Lib.DocStore

/-!
# The records of the app

`MODEL/*.swift`: what the app keeps of a stored document. A document is a
dictionary of strings, integers and timestamps; every record is decoded field
by field, and a field that is missing or has another type silently takes a
default. The current time, which `Timestamp(date: Date())` reads as the
default of a `time` field, is the argument `now` of the decoder.

`User.stats` and the texts of `FeedBackType` are left out: they are only
displayed. A `UserStats` is never stored: `User.init` sets it to zeros.
-/

namespace Toontagram

abbrev Uid := String
abbrev DocID := String

/-- Firestore's `Timestamp`. -/
structure Timestamp where
  seconds : Int
  nanoseconds : Int
deriving DecidableEq, Repr

/-- The types of field the app stores. -/
inductive Value where
  | string (s : String)
  | int (n : Int)
  | timestamp (t : Timestamp)
deriving DecidableEq, Repr

/-- `[String : Any]`. -/
abbrev Dictionary := Lib.Fields Value

namespace Dictionary

/-- `dictionary[key] as? String`. -/
def string? (d : Dictionary) (key : String) : Option String :=
  match d key with
  | some (.string s) => some s
  | _ => none

/-- `dictionary[key] as? Int`. -/
def int? (d : Dictionary) (key : String) : Option Int :=
  match d key with
  | some (.int n) => some n
  | _ => none

/-- `dictionary[key] as? Timestamp`. -/
def timestamp? (d : Dictionary) (key : String) : Option Timestamp :=
  match d key with
  | some (.timestamp t) => some t
  | _ => none

end Dictionary

/-- `User`: the profile of an account. `fan` says whether the account signed in
on this device follows the user, as far as the screen knows. -/
structure User where
  email : String
  penname : String
  name : String
  profileImageUrl : String
  backgroundImageUrl : String
  introduction : String
  uid : Uid
  fan : Bool := false
deriving DecidableEq, Repr

/-- `User.init(dictionary:)`. -/
def User.init (dictionary : Dictionary) : User where
  email := (dictionary.string? "email").getD ""
  penname := (dictionary.string? "penname").getD ""
  name := (dictionary.string? "name").getD ""
  profileImageUrl := (dictionary.string? "profileImageUrl").getD ""
  uid := (dictionary.string? "uid").getD ""
  backgroundImageUrl := (dictionary.string? "profileBackImageUrl").getD ""
  introduction := (dictionary.string? "introduction").getD ""

/-- `Cartoon`. Equality is the one the compiler synthesises for `Hashable`:
every stored field counts, `didLike` included. -/
structure Cartoon where
  title : String
  username : String
  thumbnailImage : String
  page1 : String
  page2 : String
  page3 : String
  page4 : String
  like : Int
  uid : Uid
  time : Timestamp
  cartoonId : DocID
  type : String
  caption : String
  userProfileImageUrl : String
  didLike : Bool := false
deriving DecidableEq, Repr

/-- `Cartoon.init(cartoonId:dictionary:)`. -/
def Cartoon.init (now : Timestamp) (cartoonId : DocID) (dictionary : Dictionary) : Cartoon where
  title := (dictionary.string? "title").getD ""
  username := (dictionary.string? "username").getD ""
  thumbnailImage := (dictionary.string? "thumbnailImage").getD ""
  page1 := (dictionary.string? "page1").getD ""
  page2 := (dictionary.string? "page2").getD ""
  page3 := (dictionary.string? "page3").getD ""
  page4 := (dictionary.string? "page4").getD ""
  like := (dictionary.int? "like").getD 0
  uid := (dictionary.string? "uid").getD ""
  time := (dictionary.timestamp? "time").getD now
  cartoonId := cartoonId
  type := (dictionary.string? "type").getD ""
  caption := (dictionary.string? "caption").getD ""
  userProfileImageUrl := (dictionary.string? "userProfileImageUrl").getD ""

/-- A document that has a timestamp decodes to the same cartoon at any time. -/
theorem Cartoon.init_timed {dictionary : Dictionary} {t : Timestamp}
    (h : dictionary.timestamp? "time" = some t) (now now' : Timestamp) (id : DocID) :
    Cartoon.init now id dictionary = Cartoon.init now' id dictionary := by
  rw [Cartoon.init, Cartoon.init, h]
  rfl

/-- `FeedBackType`. -/
inductive FeedBackType where
  | like
  | fan
  | comment
deriving DecidableEq, Repr

/-- `FeedBackType.rawValue`: the position in the declaration. -/
def FeedBackType.rawValue : FeedBackType → Int
  | .like => 0
  | .fan => 1
  | .comment => 2

/-- `FeedBackType(rawValue:)`. -/
def FeedBackType.ofRawValue : Int → Option FeedBackType
  | 0 => some .like
  | 1 => some .fan
  | 2 => some .comment
  | _ => none

@[simp] theorem FeedBackType.ofRawValue_rawValue (type : FeedBackType) :
    ofRawValue type.rawValue = some type := by
  cases type <;> rfl

/-- `FeedBack`: a notification. `userFan` says whether the account signed in on
this device follows the sender, as far as the screen knows. -/
structure FeedBack where
  uid : Uid
  cartoonID : Option DocID
  thumbnailImage : Option String
  time : Timestamp
  type : FeedBackType
  id : DocID
  userProfileImageUrl : String
  userName : String
  userFan : Bool := false
deriving DecidableEq, Repr

/-- `FeedBack.init(dictinary:)`. -/
def FeedBack.init (now : Timestamp) (dictinary : Dictionary) : FeedBack where
  time := (dictinary.timestamp? "time").getD now
  id := (dictinary.string? "id").getD ""
  uid := (dictinary.string? "uid").getD ""
  cartoonID := some ((dictinary.string? "cartoonID").getD "")
  thumbnailImage := some ((dictinary.string? "thumbnailImage").getD "")
  type := (FeedBackType.ofRawValue ((dictinary.int? "type").getD 0)).getD .like
  userProfileImageUrl := (dictinary.string? "userProfileImageUrl").getD ""
  userName := (dictinary.string? "userName").getD ""

/-- A notification that has a timestamp decodes to the same at any time. -/
theorem FeedBack.init_timed {dictinary : Dictionary} {t : Timestamp}
    (h : dictinary.timestamp? "time" = some t) (now now' : Timestamp) :
    FeedBack.init now dictinary = FeedBack.init now' dictinary := by
  rw [FeedBack.init, FeedBack.init, h]
  rfl

/-- `Comment`. -/
structure Comment where
  uid : Uid
  userProfilePenname : String
  userProfileImageUrl : String
  time : Timestamp
  comment : String
deriving DecidableEq, Repr

/-- `Comment.init(dictionary:)`. -/
def Comment.init (now : Timestamp) (dictionary : Dictionary) : Comment where
  uid := (dictionary.string? "uid").getD ""
  userProfilePenname := (dictionary.string? "userProfilePenname").getD ""
  userProfileImageUrl := (dictionary.string? "userProfileImageUrl").getD ""
  time := (dictionary.timestamp? "time").getD now
  comment := (dictionary.string? "comment").getD ""

/-- A comment that has a timestamp decodes to the same at any time. -/
theorem Comment.init_timed {dictionary : Dictionary} {t : Timestamp}
    (h : dictionary.timestamp? "time" = some t) (now now' : Timestamp) :
    Comment.init now dictionary = Comment.init now' dictionary := by
  rw [Comment.init, Comment.init, h]
  rfl

end Toontagram
