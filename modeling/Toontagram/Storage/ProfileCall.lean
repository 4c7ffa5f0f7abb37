import Toontagram.Storage.ProfileImages

/-!
# One registration or profile edit

`AuthService.userRegister` and `UserService.editUserData`, from the pictures to the
document. A call draws a name, puts its two pictures under it and looks their URLs up; a
registration then creates the account, and both write the two URLs into the document of
their user. `Stage` is how far a call has come: it waits for one answer at a time.

`ProfileCall.Stored` says what a call has stored so far, and `ProfileCall.Goes` how one
answer takes it on: it leaves the call with what the next stage says (`Goes.stored`), and
a call with another name with what it had (`Goes.other`).
-/

namespace Toontagram

open Lib (ObjectStore PutReply Store)
open AuthService (Registration)
open ImageService (back pairRef pairSlots profile pictureRef pictureRef_eq)

variable {Image Data : Type}

/-! ## The calls -/

/-- A registration, with the texts of its credentials, or an edit of a profile. -/
inductive ProfileArgs (Image : Type) where
  | userRegister (email name penname introduction : String)
      (profileImage profileBackgroundImage : Image)
  | editUserData (user : User) (profile backImage : Image) (intro : String)
deriving DecidableEq

/-- How far a call has come: it waits for a put, for a lookup, for `createUser` or for the
write of its document, or it is over. `failed` is every early return. -/
inductive Stage where
  | ref1Put
  | ref2Put
  | ref1URL
  | ref2URL (url : Option String)
  | createUser (str : Vector String 2)
  | write (uid : Uid) (str : Vector String 2)
  | written (uid : Uid) (str : Vector String 2) (ok : Bool)
  | failed
deriving DecidableEq

/-- A call, and the name `UUID().uuidString` it has drawn. -/
structure ProfileCall (Image : Type) where
  args : ProfileArgs Image
  fileName : String
  stage : Stage
deriving DecidableEq

/-- The fields of a user's document that hold its URLs. -/
def urlField : Fin 2 → String := !["profileImageUrl", "profileBackImageUrl"]

namespace ProfileArgs

/-- The folder of `uploadimages` or of `editUserProfileImage`. -/
def folder : ProfileArgs Image → String
  | .userRegister .. => "profile_images"
  | .editUserData .. => "profile_new_images"

/-- The profile image and the background image. -/
def image : ProfileArgs Image → Fin 2 → Image
  | .userRegister _ _ _ _ profileImage profileBackgroundImage =>
    ![profileImage, profileBackgroundImage]
  | .editUserData _ profile backImage _ => ![profile, backImage]

/-- The user whose profile is edited. -/
def editor : ProfileArgs Image → Option Uid
  | .userRegister .. => none
  | .editUserData user .. => some user.uid

/-- What the completion does with the URLs: an edit writes at once. -/
def completion (args : ProfileArgs Image) (str : Vector String 2) : Stage :=
  match args with
  | .userRegister .. => .createUser str
  | .editUserData user .. => .write user.uid str

/-- The write of the document of `uid`. -/
def document (args : ProfileArgs Image) (uid : Uid) (str : Vector String 2) : Write :=
  match args with
  | .userRegister email name penname introduction _ _ =>
    .setData ⟨.user, uid⟩ (Registration.data ⟨email, name, penname, introduction, str, uid⟩)
  | .editUserData _ _ _ intro => .updateData ⟨.user, uid⟩ (UserService.edited str intro)

/-- What a write leaves in the documents: the two URLs in its own, and the others as they
were. -/
theorem lookup_document (args : ProfileArgs Image) {uid uid' : Uid} {str : Vector String 2}
    {firestore : Firestore} {data : Dictionary}
    (h : ((args.document uid str).apply firestore).lookup ⟨.user, uid'⟩ = some data) :
    (uid' = uid ∧ ∀ k, Dictionary.string? data (urlField k) = some (str.get k)) ∨
      firestore.lookup ⟨.user, uid'⟩ = some data := by
  by_cases huid : uid' = uid
  · subst huid
    refine .inl ⟨rfl, ?_⟩
    cases args with
    | userRegister email name penname introduction =>
      rw [document, Store.lookup_apply_setData_self] at h
      obtain rfl := Option.some.inj h
      intro k
      match k with
      | 0 => rfl
      | 1 => rfl
    | editUserData user =>
      rw [document, Store.lookup_apply_updateData, if_pos rfl] at h
      obtain ⟨old, -, rfl⟩ := Option.map_eq_some_iff.mp h
      intro k
      match k with
      | 0 => rfl
      | 1 => rfl
  · have href : (args.document uid str).ref ≠ ⟨.user, uid'⟩ := by
      cases args <;> exact fun heq => huid (congrArg Lib.DocRef.documentID heq).symm
    rw [Store.lookup_apply_ne href] at h
    exact .inr h

end ProfileArgs

namespace ProfileCall

/-- `ref1` and `ref2`. -/
def ref (c : ProfileCall Image) (k : Fin 2) : StoragePath := pairRef c.args.folder c.fileName k

/-- The call begins: both pictures are encoded first. -/
def start (jpegData : Image → Option Data) (args : ProfileArgs Image) (fileName : String) :
    ProfileCall Image :=
  ⟨args, fileName, if ∀ k, (jpegData (args.image k)).isSome then .ref1Put else .failed⟩

/-- The put the call waits for is answered. -/
def putData (jpegData : Image → Option Data) (c : ProfileCall Image) (reply : PutReply String)
    (storage : Storage Data) : Option (Storage Data × Stage) :=
  let put (k : Fin 2) (next : Stage) := (jpegData (c.args.image k)).map fun data =>
    if reply.ok then (storage.putData (c.ref k) data reply.stop, next) else (storage, .failed)
  match c.stage with
  | .ref1Put => put profile .ref2Put
  | .ref2Put => put back .ref1URL
  | _ => none

/-- The lookup the call waits for is answered. The first answer is not looked at before
the second one is there. -/
def downloadURL (c : ProfileCall Image) (choice : Option String) (storage : Storage Data) :
    Option (Storage Data × Stage) :=
  match c.stage with
  | .ref1URL =>
    let (storage, url) := storage.downloadURL (c.ref profile) choice
    some (storage, .ref2URL url)
  | .ref2URL url =>
    let (storage, urls) := storage.downloadURL (c.ref back) choice
    some (storage, match url, urls with
      | some profileUrl, some backUrl => c.args.completion (.ofFn ![profileUrl, backUrl])
      | _, _ => .failed)
  | _ => none

end ProfileCall

/-! ## The paths -/

theorem ProfileArgs.standardized_folder : ∀ args : ProfileArgs Image,
    StoragePath.standardized args.folder = [args.folder]
  | .userRegister .. => by
    change StoragePath.standardized "profile_images" = ["profile_images"]
    decide
  | .editUserData .. => by
    change StoragePath.standardized "profile_new_images" = ["profile_new_images"]
    decide

namespace ProfileCall

/-- The name of a call is one component of its paths. -/
def Named (c : ProfileCall Image) : Prop := StoragePath.standardized c.fileName = [c.fileName]

theorem Named.ref_eq {c : ProfileCall Image} (h : c.Named) (k : Fin 2) :
    c.ref k = [c.args.folder, c.fileName, pairSlots.get k] := by
  have hslot : ∀ k : Fin 2, StoragePath.standardized (pairSlots.get k) = [pairSlots.get k] := by
    decide
  rw [ref, pairRef, StoragePath.child, StoragePath.child, StoragePath.child,
    c.args.standardized_folder, h, hslot]
  rfl

/-- The two pictures of a call have two paths. -/
theorem Named.ref_inj {c : ProfileCall Image} (h : c.Named) {k k' : Fin 2}
    (heq : c.ref k = c.ref k') : k = k' := by
  have hslots : ∀ k k' : Fin 2, pairSlots.get k = pairSlots.get k' → k = k' := by decide
  rw [h.ref_eq, h.ref_eq] at heq
  injection heq with _ heq
  injection heq with _ heq
  exact hslots k k' (List.head_eq_of_cons_eq heq)

/-- Calls with different names put nothing at each other's paths. -/
theorem Named.ref_ne {c c' : ProfileCall Image} (h : c.Named) (h' : c'.Named)
    (hne : c'.fileName ≠ c.fileName) (k k' : Fin 2) : c.ref k ≠ c'.ref k' := by
  rw [h.ref_eq, h'.ref_eq]
  intro heq
  injection heq with _ heq
  exact hne (List.head_eq_of_cons_eq heq).symm

/-- No cartoon has a picture at a path of a profile. -/
theorem Named.pictureRef_ne {c : ProfileCall Image} (h : c.Named) (title : String) (k : Fin 5)
    (k' : Fin 2) : pictureRef title k ≠ c.ref k' := by
  rw [pictureRef_eq, h.ref_eq]
  intro heq
  have hfolder : ∀ args : ProfileArgs Image, "cartoon_images" ≠ args.folder
    | .userRegister .. => by
      change "cartoon_images" ≠ "profile_images"
      decide
    | .editUserData .. => by
      change "cartoon_images" ≠ "profile_new_images"
      decide
  exact hfolder c.args (List.head_eq_of_cons_eq heq)

end ProfileCall

/-! ## What a call has stored -/

namespace Stage

/-- The pictures that are put. Nothing is said of a call that has failed. -/
def puts : Stage → Fin 2 → Bool
  | .ref1Put, _ | .failed, _ => false
  | .ref2Put, k => k = profile
  | _, _ => true

/-- The URLs that are looked up. -/
def url : Stage → Fin 2 → Option String
  | .ref2URL url => ![url, none]
  | .createUser str | .write _ str | .written _ str _ => fun k => some (str.get k)
  | _ => fun _ => none

/-- The call waits for nothing. -/
def ended : Stage → Bool
  | .written _ _ _ | .failed => true
  | _ => false

end Stage

namespace ProfileCall

variable {jpegData : Image → Option Data} {storage storage' : Storage Data}
  {c c' : ProfileCall Image} {stage : Stage}

/-- What was put is there, and the URLs that were looked up work. -/
structure Stored (jpegData : Image → Option Data) (storage : Storage Data)
    (c : ProfileCall Image) : Prop where
  encoded : c.stage ≠ .failed → ∀ k, (jpegData (c.args.image k)).isSome = true
  object : ∀ k, c.stage.puts k = true →
    storage.objects.lookup (c.ref k) = jpegData (c.args.image k)
  url : ∀ k u, c.stage.url k = some u → storage.Serves u (c.ref k)

/-- A call that has failed has nothing to keep. -/
theorem Stored.failed (h : c.stage = .failed) : c.Stored jpegData storage := by
  refine ⟨fun hne => absurd h hne, fun k hk => ?_, fun k u hu => ?_⟩
  · rw [h] at hk
    cases hk
  · rw [h] at hu
    cases hu

/-- A call begins with nothing stored. -/
theorem stored_start (jpegData : Image → Option Data) (storage : Storage Data)
    (args : ProfileArgs Image) (fileName : String) :
    (start jpegData args fileName).Stored jpegData storage := by
  unfold start
  split
  next hencoded =>
    exact ⟨fun _ => hencoded, fun _ h => (by cases h), fun _ _ h => (by cases h)⟩
  next => exact Stored.failed rfl

/-- A put at another path. -/
theorem Stored.putData (h : c.Stored jpegData storage) {p : StoragePath} (hp : ∀ k, p ≠ c.ref k)
    (data : Data) (stop : List String) : c.Stored jpegData (storage.putData p data stop) where
  encoded := h.encoded
  object k hk := by rw [ObjectStore.lookup_putData_ne _ (hp k), h.object k hk]
  url k u hu := (h.url k u hu).putData (hp k) data stop

/-- A lookup at any path. -/
theorem Stored.downloadURL (h : c.Stored jpegData storage) (p : StoragePath)
    (choice : Option String) : c.Stored jpegData (storage.downloadURL p choice).1 where
  encoded := h.encoded
  object k hk := by rw [(storage.downloadURL_objects p choice).1, h.object k hk]
  url k u hu := (h.url k u hu).downloadURL p choice

/-- The document that a call writes is the one of its user. -/
def Addressed (c : ProfileCall Image) : Prop :=
  match c.stage with
  | .createUser _ => c.args.editor = none
  | .write uid _ | .written uid _ _ => ∀ user, c.args.editor = some user → user = uid
  | _ => True

/-! ## What one answer does -/

/-- The ways a call goes on: what it leaves in the storage, and its next stage. -/
inductive Goes (jpegData : Image → Option Data) (c : ProfileCall Image) (storage : Storage Data) :
    Storage Data → Stage → Prop where
  | fail : c.stage.ended = false → Goes jpegData c storage storage .failed
  | ref1Put {data : Data} (stop : List String) : c.stage = .ref1Put →
    jpegData (c.args.image 0) = some data →
    Goes jpegData c storage (storage.putData (c.ref 0) data stop) .ref2Put
  | ref2Put {data : Data} (stop : List String) : c.stage = .ref2Put →
    jpegData (c.args.image 1) = some data →
    Goes jpegData c storage (storage.putData (c.ref 1) data stop) .ref1URL
  | ref1URL (choice : Option String) : c.stage = .ref1URL →
    Goes jpegData c storage (storage.downloadURL (c.ref 0) choice).1
      (.ref2URL (storage.downloadURL (c.ref 0) choice).2)
  | noURL {url : Option String} (choice : Option String) : c.stage = .ref2URL url →
    Goes jpegData c storage (storage.downloadURL (c.ref 1) choice).1 .failed
  | ref2URL {profileUrl backUrl : String} {choice : Option String} :
    c.stage = .ref2URL (some profileUrl) →
    (storage.downloadURL (c.ref 1) choice).2 = some backUrl →
    Goes jpegData c storage (storage.downloadURL (c.ref 1) choice).1
      (c.args.completion (.ofFn ![profileUrl, backUrl]))
  | createUser {str : Vector String 2} (uid : Uid) : c.stage = .createUser str →
    Goes jpegData c storage storage (.write uid str)

/-- A call that is over does not go on. -/
theorem Goes.ended (h : c.Goes jpegData storage storage' stage) : c.stage.ended = false := by
  cases h with
  | fail hopen => exact hopen
  | ref1Put _ hstage | ref2Put _ hstage | ref1URL _ hstage | noURL _ hstage | ref2URL hstage
  | createUser _ hstage =>
    rw [hstage]
    rfl

/-- A put, from the callback. -/
theorem goes_putData {reply : PutReply String}
    (h : c.putData jpegData reply storage = some (storage', stage)) :
    c.Goes jpegData storage storage' stage := by
  unfold ProfileCall.putData at h
  dsimp only at h
  split at h
  next hstage =>
    obtain ⟨data, hdata, hput⟩ := Option.map_eq_some_iff.mp h
    split at hput
    · cases hput
      exact .ref1Put reply.stop hstage hdata
    · cases hput
      exact .fail (by rw [hstage]; rfl)
  next hstage =>
    obtain ⟨data, hdata, hput⟩ := Option.map_eq_some_iff.mp h
    split at hput
    · cases hput
      exact .ref2Put reply.stop hstage hdata
    · cases hput
      exact .fail (by rw [hstage]; rfl)
  next => cases h

/-- A lookup, from the callback. -/
theorem goes_downloadURL {choice : Option String}
    (h : c.downloadURL choice storage = some (storage', stage)) :
    c.Goes jpegData storage storage' stage := by
  unfold ProfileCall.downloadURL at h
  split at h
  next hstage =>
    cases h
    exact .ref1URL choice hstage
  next url hstage =>
    obtain ⟨⟨after, urls⟩, hlookup⟩ : ∃ x, storage.downloadURL (c.ref 1) choice = x := ⟨_, rfl⟩
    have hafter : (storage.downloadURL (c.ref 1) choice).1 = after := congrArg Prod.fst hlookup
    have hback : (storage.downloadURL (c.ref 1) choice).2 = urls := congrArg Prod.snd hlookup
    rw [hlookup] at h
    cases url with
    | none =>
      cases h
      exact hafter ▸ .noURL choice hstage
    | some profileUrl =>
      cases urls with
      | none =>
        cases h
        exact hafter ▸ .noURL choice hstage
      | some backUrl =>
        cases h
        exact hafter ▸ .ref2URL hstage hback
  next => cases h

/-- What a call has stored stays, and what it stores now is there. -/
theorem Goes.stored (h : c.Goes jpegData storage storage' stage) (hname : c.Named)
    (hc : c.Stored jpegData storage) : Stored jpegData storage' { c with stage := stage } := by
  have hencoded : ∀ k, (jpegData (c.args.image k)).isSome = true := hc.encoded fun hfailed => by
    have hopen := h.ended
    rw [hfailed] at hopen
    cases hopen
  cases h with
  | fail | noURL => exact .failed rfl
  | ref1Put stop hstage hdata =>
    refine ⟨fun _ => hencoded, fun k hk => ?_, fun k u hu => (by cases hu)⟩
    obtain rfl : k = 0 := of_decide_eq_true hk
    exact (ObjectStore.lookup_putData_self ..).trans hdata.symm
  | ref2Put stop hstage hdata =>
    refine ⟨fun _ => hencoded, fun k _ => ?_, fun k u hu => (by cases hu)⟩
    match k with
    | 0 =>
      have hne : c.ref 1 ≠ c.ref 0 := fun heq => absurd (hname.ref_inj heq) (by decide)
      refine (ObjectStore.lookup_putData_ne _ hne _ _).trans (hc.object 0 ?_)
      rw [hstage]
      rfl
    | 1 => exact (ObjectStore.lookup_putData_self ..).trans hdata.symm
  | ref1URL choice hstage =>
    have hkept := hc.downloadURL (c.ref 0) choice
    refine ⟨fun _ => hencoded, fun k _ => hkept.object k (by rw [hstage]; rfl), fun k u hu => ?_⟩
    match k with
    | 0 => exact ObjectStore.serves_downloadURL hu
    | 1 => cases hu
  | @ref2URL profileUrl backUrl choice hstage hback =>
    have hkept := hc.downloadURL (c.ref 1) choice
    have hputs : ∀ k, c.stage.puts k = true := fun k => by
      rw [hstage]
      rfl
    have hserves : ∀ k, (storage.downloadURL (c.ref 1) choice).1.Serves
        ((Vector.ofFn ![profileUrl, backUrl]).get k) (c.ref k) := fun k => by
      match k with
      | 0 => exact hkept.url 0 profileUrl (by rw [hstage]; rfl)
      | 1 => exact ObjectStore.serves_downloadURL hback
    obtain ⟨args, fileName, old⟩ := c
    cases args <;>
      exact ⟨fun _ => hencoded, fun k _ => hkept.object k (hputs k),
        fun k u hu => Option.some.inj hu ▸ hserves k⟩
  | createUser uid hstage =>
    refine ⟨fun _ => hencoded, fun k _ => hc.object k (by rw [hstage]; rfl), fun k u hu => ?_⟩
    exact hc.url k u (by rw [hstage]; exact hu)

theorem Goes.addressed (h : c.Goes jpegData storage storage' stage) (hc : c.Addressed) :
    Addressed { c with stage := stage } := by
  cases h with
  | fail | ref1Put | ref2Put | ref1URL | noURL => trivial
  | ref2URL =>
    obtain ⟨args, fileName, old⟩ := c
    cases args with
    | userRegister => rfl
    | editUserData user => exact fun editor heditor => (Option.some.inj heditor).symm
  | createUser uid hstage =>
    rw [Addressed, hstage] at hc
    intro user huser
    rw [hc] at huser
    cases huser

/-- The other calls keep what they have stored. -/
theorem Goes.other (h : c.Goes jpegData storage storage' stage) (hname : c.Named)
    (hname' : c'.Named) (hne : c'.fileName ≠ c.fileName) (hc' : c'.Stored jpegData storage) :
    c'.Stored jpegData storage' := by
  cases h with
  | fail | createUser => exact hc'
  | ref1Put stop | ref2Put stop => exact hc'.putData (hname.ref_ne hname' hne _) _ stop
  | ref1URL choice | noURL choice | ref2URL => exact hc'.downloadURL _ _

end ProfileCall

end Toontagram
