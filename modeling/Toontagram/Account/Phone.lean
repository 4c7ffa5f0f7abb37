import Toontagram.Storage.ProfileImages

/-!
# A device that waits for one chain of calls

Many actions of the app are one chain: a service is called with a completion,
its closures call the next service, and somewhere at the end the completion
runs, or some closure returns before. Such a function is written here as in the
source, with its completion as an argument: `Phone → Phone` is what is left to
do, and a path that returns early leaves the phone as it is at that point. How
every call of the chain is answered is an argument too.

`Phone.chain` answers the Firestore calls of `Api/Services.lean` one after the
other until the closure is reached that the screen has passed.
-/

namespace Toontagram

variable {Data : Type}

/-- The servers, the account signed in, and the shared loader of
`UTIL/Extension.swift`. `loads` and `completions` only count how often the
loader was raised and how often the completion of the action has run. -/
structure Phone (Data : Type) where
  accounts : AList fun _ : String => Uid
  auth : Option Uid
  storage : Storage Data
  firestore : Firestore
  hud : Bool
  loads : Nat
  completions : Nat

namespace Phone

/-- `UIViewController.showLoader(_:)`. -/
def showLoader (show' : Bool) (d : Phone Data) : Phone Data :=
  if show' then { d with hud := true, loads := d.loads + 1 } else { d with hud := false }

/-- The completion of the action runs. -/
def complete (d : Phone Data) : Phone Data := { d with completions := d.completions + 1 }

/-- Calls that follow from one another, each answered before the next is
issued. `done` is the closure of the screen; the calls issued beside the first
one have no completion. -/
def chain (done : Reply → Phone Data → Phone Data) : List Reply → List Call →
    Phone Data → Phone Data
  | r :: rs, k :: _, d =>
    let d' := { d with firestore := (k.exec r d.firestore).1 }
    match k.request with
    | .write _ (.screen _) => done r d'
    | .write _ completion => chain done rs (completion.run k.auth r.moment).calls d'
    | _ => d'
  | _, _, d => d

/-- `Auth.auth().createUser(withEmail:password:)`: the arguments of its closure.
An email that has an account is refused, whatever the server would reply. -/
def createUser (email : String) (reply : Option Uid) (d : Phone Data) :
    Phone Data × Option Uid × Bool :=
  match d.accounts.lookup email, reply with
  | none, some uid =>
    ({ d with accounts := d.accounts.insert email uid, auth := some uid }, some uid, false)
  | _, _ => (d, none, true)

theorem createUser_of_free {d : Phone Data} {email : String}
    (h : d.accounts.lookup email = none) (uid : Uid) :
    d.createUser email (some uid) =
      ({ d with accounts := d.accounts.insert email uid, auth := some uid }, some uid, false) := by
  simp only [createUser, h]

theorem createUser_refused {d : Phone Data} {email : String} {reply : Option Uid}
    (h : ∀ uid, d.accounts.lookup email = none → reply ≠ some uid) :
    d.createUser email reply = (d, none, true) := by
  unfold createUser
  split
  next uid hfree => exact absurd rfl (h uid hfree)
  next => rfl

end Phone

end Toontagram
