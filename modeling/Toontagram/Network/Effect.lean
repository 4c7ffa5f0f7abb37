import Toontagram.Lib.Script
import Toontagram.Api.App

/-!
# The network of readers and authors

What the app is for, without collections, closures and answers: profiles, cartoons
and comments, who is a fan of whom, who likes what, and which cartoons stand in whose
feed. `Network.perform` is what an operation does to it in one step.

A follow from a profile screen brings the author's cartoons into the own feed, one from
the notifications does not. A like sets the number that the screen has counted, and a
deleted cartoon stays in the feeds.
-/

namespace Toontagram

open Lib (put)
open CartoonService (Upload)

/-- Who reads what. -/
structure Network where
  users : Uid → Option Dictionary
  cartoons : DocID → Option Dictionary
  /-- The comments, each with its cartoon. -/
  comments : DocID × DocID → Option Dictionary
  /-- `(v, u)`: the account `v` is a fan of `u`. -/
  fans : Set (Uid × Uid)
  likes : Set (Uid × DocID)
  feed : Set (Uid × DocID)

namespace Network

/-- Nobody is there yet. -/
def empty : Network := ⟨fun _ => none, fun _ => none, fun _ => none, ∅, ∅, ∅⟩

variable (N : Network)

/-- The cartoons of an author. -/
def cartoonsBy (author : Uid) : Set DocID :=
  {x | ∃ data, N.cartoons x = some data ∧ data "uid" = some (.string author)}

/-- Who gets a new cartoon of an author: the author and the fans. -/
def readers (author : Uid) : Set Uid := {v | v = author ∨ (v, author) ∈ N.fans}

def fan (b : Bool) (me uid : Uid) : Network := { N with fans := put b {(me, uid)} N.fans }

/-- The cartoons of an author enter the feed or leave it. -/
def feedWith (b : Bool) (me author : Uid) : Network :=
  { N with feed := put b {p | p.1 = me ∧ p.2 ∈ N.cartoonsBy author} N.feed }

def updateCartoon (x : DocID) (fields : Dictionary) : Network :=
  { N with cartoons := Function.update N.cartoons x ((N.cartoons x).map (·.merge fields)) }

def like (b : Bool) (me : Uid) (x : DocID) : Network :=
  { N with likes := put b {(me, x)} N.likes }

def upload (author : Uid) (u : Upload) : Network :=
  { N with
    cartoons := Function.update N.cartoons u.ref (some (u.data author))
    feed := put true {p | p.1 ∈ N.readers author ∧ p.2 = u.ref} N.feed }

end Network

/-- What an operation does, in one step. -/
def Network.perform (N : Network) : Operation → Network
  | .action (.didTapButton (some me) (some _) _ user) =>
    if me = user.uid then N
    else (N.fan (!user.fan) me user.uid).feedWith (!user.fan) me user.uid
  | .action (.uploadCartoon (some me) u) => N.upload me u
  | .action (.likeCartoon (some me) cartoon _) =>
    (N.updateCartoon cartoon.cartoonId (.ofList [("like", .int (cartoon.like + 1))])).like true me
      cartoon.cartoonId
  | .action (.unLikeCartoon (some me) cartoon) =>
    if cartoon.like > 0 then
      (N.updateCartoon cartoon.cartoonId (.ofList [("like", .int (cartoon.like - 1))])).like false
        me cartoon.cartoonId
    else N
  | .action (.editCartoon _ type x title caption) =>
    N.updateCartoon x
      (.ofList [("title", .string title), ("type", .string type), ("caption", .string caption)])
  | .loadComment _ (some currentUser) cartoon comment m =>
    { N with
      comments := Function.update N.comments (cartoon.cartoonId, m.autoID)
        (some (CommentService.data comment currentUser m)) }
  | .fan (some me) uid => N.fan true me uid
  | .unFan (some me) uid => N.fan false me uid
  | .deleteCartoon _ cartoon =>
    { N with cartoons := Function.update N.cartoons cartoon.cartoonId none }
  | .editUserData _ user str intro =>
    { N with
      users := Function.update N.users user.uid
        ((N.users user.uid).map (·.merge (UserService.edited str intro))) }
  | .userRegister r => { N with users := Function.update N.users r.uid (some r.data) }
  | _ => N

end Toontagram
