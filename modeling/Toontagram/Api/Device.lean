import Toontagram.Lib.Outbox
import Toontagram.Api.Services

/-!
# One device

A device on its own, with the order the Firestore SDK gives its writes: they
are applied and acknowledged in the order issued (`Lib/Outbox.lean`), and all
succeed. A read is served some time after it is asked, and its closure runs
some time after that, in any order.

`Device.step` lets the four services that keep mirrored documents be called at
any time, without waiting for anything.
-/

namespace Toontagram

open Lib (Outbox)

def Call.isWrite (k : Call) : Bool :=
  match k.request with
  | .write _ _ => true
  | _ => false

/-- The effect of a call that succeeds. -/
def Call.effect (k : Call) (s : Firestore) : Firestore :=
  match k.request with
  | .write w _ => w.apply s
  | _ => s

/-- What runs when a write is acknowledged. -/
def Call.reaction (k : Call) (m : Moment) : Reaction :=
  match k.request with
  | .write _ completion => completion.run k.auth m
  | _ => {}

/-- The writes among what the closure of a write issues. -/
def Call.follow (k : Call) (m : Moment) : List Call := (k.reaction m).calls.filter Call.isWrite

/-- The writes of a device in order, its unanswered reads, and the reactions of
the reads that are served and not delivered. -/
structure Device where
  queue : Outbox Firestore Call
  reads : List Call
  served : List Reaction

namespace Device

def issue (d : Device) (ks : List Call) : Device :=
  { d with
    queue := d.queue.issue (ks.filter Call.isWrite)
    reads := d.reads ++ ks.filter fun k => !k.isWrite }

/-- The server applies the oldest write. -/
def apply (d : Device) : Option Device :=
  (d.queue.applyHead Call.effect).map fun queue => { d with queue := queue }

/-- The oldest applied write is acknowledged: its closure issues further calls
and assigns on its screen. -/
def acknowledge (d : Device) (m : Moment) : Option (Device × List Effect) :=
  match d.queue.applied with
  | [] => none
  | k :: _ => (d.queue.acknowledgeHead Call.follow m).map fun queue =>
    ({ d with
        queue := queue
        reads := d.reads ++ (k.reaction m).calls.filter fun k => !k.isWrite },
      (k.reaction m).effects)

/-- The server applies the `i`-th of the writes it has not applied, in whatever
order they were sent. -/
def applyAt (d : Device) (i : Nat) : Option Device :=
  (d.queue.applyAt Call.effect i).map fun queue => { d with queue := queue }

/-- The `i`-th applied write is acknowledged. -/
def acknowledgeAt (d : Device) (i : Nat) (m : Moment) : Option (Device × List Effect) :=
  match d.queue.applied[i]? with
  | none => none
  | some k => (d.queue.acknowledgeAt Call.follow i m).map fun queue =>
    ({ d with
        queue := queue
        reads := d.reads ++ (k.reaction m).calls.filter fun k => !k.isWrite },
      (k.reaction m).effects)

/-- The server answers the `i`-th read. -/
def serve (d : Device) (i : Nat) (r : Reply) : Option Device :=
  (d.reads[i]?).map fun k =>
    { d with
      reads := d.reads.eraseIdx i
      served := d.served ++ [(k.exec r d.queue.state).2] }

/-- The answer of a read reaches its closure. -/
def deliver (d : Device) (i : Nat) : Option (Device × List Effect) :=
  (d.served[i]?).map fun x =>
    ({ d with served := d.served.eraseIdx i }.issue x.calls, x.effects)

/-- All callbacks have run. -/
def Idle (d : Device) : Prop := d.queue.Idle ∧ d.reads = [] ∧ d.served = []

instance (d : Device) : Decidable d.Idle :=
  decidable_of_iff (d.queue.Idle ∧ d.reads.isEmpty ∧ d.served.isEmpty) (by simp [Idle])

/-- A device that has issued nothing yet. -/
def opened (store : Firestore) : Device := ⟨⟨store, [], []⟩, [], []⟩

end Device

/-- A call of one of the services that keep mirrored documents. -/
inductive ServiceCall where
  | fanUsers (uid : Uid) (completion : ScreenCompletion)
  | antiFanUser (uid : Uid) (completion : ScreenCompletion)
  | likeCartoon (cartoon : Cartoon) (completion : ScreenCompletion)
  | unLikeCartoon (cartoon : Cartoon) (completion : ScreenCompletion)
deriving DecidableEq, Repr

/-- What it issues on a device on which `me` is signed in. -/
def ServiceCall.calls (me : Uid) : ServiceCall → List Call
  | .fanUsers uid completion => UserService.fanUsers (some me) uid completion
  | .antiFanUser uid completion => UserService.antiFanUser (some me) uid completion
  | .likeCartoon cartoon completion => CartoonService.likeCartoon (some me) cartoon completion
  | .unLikeCartoon cartoon completion => CartoonService.unLikeCartoon (some me) cartoon completion

inductive DeviceEvent where
  | call (c : ServiceCall)
  | apply
  | acknowledge (m : Moment)
  | serve (i : Nat) (r : Reply)
  | deliver (i : Nat)
deriving DecidableEq, Repr

/-- One event on the device of `me`. -/
def Device.step (me : Uid) (d : Device) : DeviceEvent → Option Device
  | .call c => some (d.issue (c.calls me))
  | .apply => d.apply
  | .acknowledge m => (d.acknowledge m).map Prod.fst
  | .serve i r => d.serve i r
  | .deliver i => (d.deliver i).map Prod.fst

end Toontagram
