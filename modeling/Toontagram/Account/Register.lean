import Toontagram.Account.Phone

/-!
# Signing up

`AuthService.userRegister` as the sign-up screen calls it. Three services answer
one after the other: Storage takes the pictures, Auth creates the account,
Firestore sets the profile. Nothing undoes a step when a later one fails.

`userRegister_of_creates` and `userRegister_of_not` say what every combination
of answers leaves; `allOrNothing_iff` reads off when that is both the account
and the profile or neither, and `AllOrNothing.free` that the email can then be
used again.
-/

namespace Toontagram

open AuthService (Registration)

variable {Image Data : Type}

/-- `AuthCredentials`. -/
structure AuthCredentials (Image : Type) where
  email : String
  password : String
  name : String
  penname : String
  profileImage : Image
  profileBackgroundImage : Image
  introduction : String

/-- How the steps of a registration are answered. -/
structure RegisterReplies where
  images : ImageService.PairReplies
  createUser : Option Uid
  setData : Reply

/-- The arguments of `setData`. -/
def AuthCredentials.registration (c : AuthCredentials Image) (images : Vector String 2)
    (uid : Uid) : Registration :=
  ⟨c.email, c.name, c.penname, c.introduction, images, uid⟩

/-- `AuthService.userRegister(with:completion:)`. The completion is called with
`error != nil`. -/
def AuthService.userRegister (jpegData : Image → Option Data) (credentials : AuthCredentials Image)
    (r : RegisterReplies) (completion : Bool → Phone Data → Phone Data) (d : Phone Data) :
    Phone Data :=
  match ImageService.uploadimages jpegData d.storage credentials.profileImage
    credentials.profileBackgroundImage r.images with
  | (storage, none) => { d with storage := storage }
  | (storage, some images) =>
    let (d, results, error) :=
      ({ d with storage := storage } : Phone Data).createUser credentials.email r.createUser
    if error then d
    else
      match results with
      | none => d
      | some uid =>
        Phone.chain (fun reply => completion (!reply.ok)) [r.setData]
          (AuthService.createdUser (credentials.registration images uid)) d

namespace RegisterViewController

/-- The closure of `didTapSignUp`. The two branches on the error differ in the
alert they present. -/
def registered (_error : Bool) (d : Phone Data) : Phone Data := d.complete.showLoader false

/-- The optional values that `didTapSignUp` reads. -/
structure Form (Image : Type) where
  emailtf : Option String
  passwordtf : Option String
  nametf : Option String
  penNametf : Option String
  profileImage : Option Image
  profileBackground : Option Image
  introductiontf : Option String

/-- The `guard` of `didTapSignUp` and the credentials made of what it binds. -/
def Form.credentials (form : Form Image) : Option (AuthCredentials Image) := do
  let email ← form.emailtf
  let password ← form.passwordtf
  let name ← form.nametf
  let penname ← form.penNametf
  let profileImage ← form.profileImage
  let profileBackground ← form.profileBackground
  let introduction ← form.introductiontf
  return ⟨email, password, name, penname, profileImage, profileBackground, introduction⟩

/-- `didTapSignUp()`. -/
def didTapSignUp (jpegData : Image → Option Data) (form : Form Image) (r : RegisterReplies)
    (d : Phone Data) : Phone Data :=
  let d := d.showLoader true
  match form.credentials with
  | none => d
  | some credential => AuthService.userRegister jpegData credential r registered d

end RegisterViewController

/-! ## What a registration leaves -/

section registers

variable {jpegData : Image → Option Data} {c : AuthCredentials Image} {r : RegisterReplies}
  {d : Phone Data} {uid : Uid}

/-- The steps of a registration up to `createUser` all succeed. -/
structure RegisterReplies.Creates (jpegData : Image → Option Data) (c : AuthCredentials Image)
    (r : RegisterReplies) (d : Phone Data) (uid : Uid) : Prop where
  stored : ImageService.PairStored "profile_images" jpegData d.storage c.profileImage
    c.profileBackgroundImage r.images
  free : d.accounts.lookup c.email = none
  created : r.createUser = some uid

/-- The account is created, and the profile is set if the server accepts it. -/
theorem userRegister_of_creates (completion : Bool → Phone Data → Phone Data)
    (h : r.Creates jpegData c d uid) :
    ∃ storage images, AuthService.userRegister jpegData c r completion d =
      completion (!r.setData.ok)
        { d with
          storage := storage
          accounts := d.accounts.insert c.email uid
          auth := some uid
          firestore := if r.setData.ok then (Lib.DocWrite.setData ⟨.user, uid⟩
            (c.registration images uid).data).apply d.firestore else d.firestore } := by
  obtain ⟨storage, images, hupload⟩ := (ImageService.exists_eq_some_iff _).mpr
    ((ImageService.uploadPair_isSome ..).mpr h.stored)
  refine ⟨storage, images, ?_⟩
  rw [AuthService.userRegister, ImageService.uploadimages, hupload]
  have hcreated := Phone.createUser_of_free (d := { d with storage := storage }) h.free uid
  simp only [h.created, hcreated]
  rfl

/-- Otherwise pictures may have been stored, and nothing else has happened. -/
theorem userRegister_of_not (completion : Bool → Phone Data → Phone Data)
    (h : ∀ uid, ¬ r.Creates jpegData c d uid) :
    ∃ storage, AuthService.userRegister jpegData c r completion d =
      { d with storage := storage } := by
  unfold AuthService.userRegister
  split
  next storage hupload => exact ⟨storage, rfl⟩
  next storage images hupload =>
    have hstored := (ImageService.uploadPair_isSome ..).mp
      ((ImageService.exists_eq_some_iff _).mp ⟨storage, images, hupload⟩)
    refine ⟨storage, ?_⟩
    have hrefused := Phone.createUser_refused (d := { d with storage := storage })
      fun uid hfree hcreated => h uid ⟨hstored, hfree, hcreated⟩
    simp only [hrefused]
    rfl

end registers

/-! ## All or nothing -/

/-- If the email has an account, the account has its profile. -/
def AllOrNothing (d : Phone Data) (email : String) : Prop :=
  ∀ uid, d.accounts.lookup email = some uid → d.firestore.has ⟨.user, uid⟩ = true

/-- So a registration that has failed can be repeated: where no profile is left,
the email is free. -/
theorem AllOrNothing.free {d : Phone Data} {email : String} (h : AllOrNothing d email)
    (hfailed : ∀ uid, d.accounts.lookup email = some uid →
      d.firestore.has ⟨.user, uid⟩ = false) :
    d.accounts.lookup email = none := by
  cases hemail : d.accounts.lookup email with
  | none => rfl
  | some uid =>
    have hprofile : d.firestore.has ⟨.user, uid⟩ = true := h uid hemail
    rw [hfailed uid hemail] at hprofile
    cases hprofile

/-- For every combination of answers and every state before: a registration
leaves both the account and its profile, or no account, exactly if that was so
before and the profile of an account it creates is accepted or there already. -/
theorem allOrNothing_iff (jpegData : Image → Option Data) (c : AuthCredentials Image)
    (r : RegisterReplies) (d : Phone Data) :
    AllOrNothing (AuthService.userRegister jpegData c r RegisterViewController.registered d)
        c.email ↔
      AllOrNothing d c.email ∧
        ∀ uid, r.Creates jpegData c d uid →
          r.setData.ok = true ∨ d.firestore.has ⟨.user, uid⟩ = true := by
  by_cases hcreates : ∃ uid, r.Creates jpegData c d uid
  · obtain ⟨uid, hcreates⟩ := hcreates
    obtain ⟨storage, images, hleft⟩ :=
      userRegister_of_creates RegisterViewController.registered hcreates
    -- the email was free, so all that matters is the profile of the new account
    have hbefore : AllOrNothing d c.email := by
      intro owner howner
      rw [hcreates.free] at howner
      cases howner
    have hunique : ∀ uid', r.Creates jpegData c d uid' → uid' = uid := fun uid' h' =>
      Option.some.inj (h'.created.symm.trans hcreates.created)
    have hafter : AllOrNothing (AuthService.userRegister jpegData c r
        RegisterViewController.registered d) c.email ↔
        r.setData.ok = true ∨ d.firestore.has ⟨.user, uid⟩ = true := by
      rw [hleft]
      show (∀ owner, (d.accounts.insert c.email uid).lookup c.email = some owner →
        Lib.Store.has (if r.setData.ok then _ else d.firestore) ⟨.user, owner⟩ = true) ↔ _
      rw [AList.lookup_insert]
      cases hok : r.setData.ok with
      | true =>
        refine iff_of_true (fun owner howner => ?_) (Or.inl rfl)
        rw [← Option.some.inj howner, if_pos rfl]
        exact Lib.Store.has_apply_setData_self ..
      | false =>
        rw [if_neg Bool.false_ne_true]
        simp
    rw [hafter]
    constructor
    · exact fun h => ⟨hbefore, fun uid' h' => hunique uid' h' ▸ h⟩
    · exact fun h => h.2 uid hcreates
  · obtain ⟨storage, hleft⟩ :=
      userRegister_of_not RegisterViewController.registered (not_exists.mp hcreates)
    -- neither the accounts nor the profiles have changed
    rw [hleft]
    exact ⟨fun h => ⟨h, fun uid h' => absurd ⟨uid, h'⟩ hcreates⟩, fun h => h.1⟩

/-- A phone on which nobody has signed up. -/
def Phone.blank : Phone String := ⟨∅, none, .empty, ∅, false, 0, 0⟩

/-- The author signs up; every step succeeds but, if `ok` is false, the last. -/
def signUp (fileName : String) (ok : Bool) (d : Phone String) : Phone String :=
  AuthService.userRegister some
    ⟨"author@example.com", "secret", "Author", "Pen", "face", "back", "hello"⟩
    ⟨⟨fileName, fun _ => ⟨true, []⟩, fun k => some (fileName ++ toString k)⟩, some "author",
      ⟨ok, ⟨"", ⟨0, 0⟩⟩⟩⟩
    RegisterViewController.registered d

/-- When `setData` fails the account is there without a profile, and a second
registration with the same email, in which nothing fails, does not add it: its
completion does not even run. -/
theorem signUp_profile_lost :
    (signUp "one" false .blank).accounts.lookup "author@example.com" = some "author" ∧
      ¬ AllOrNothing (signUp "one" false .blank) "author@example.com" ∧
      ¬ AllOrNothing (signUp "two" true (signUp "one" false .blank)) "author@example.com" ∧
      (signUp "two" true (signUp "one" false .blank)).completions = 1 :=
  ⟨by decide, fun h => absurd (h "author" (by decide)) (by decide),
    fun h => absurd (h "author" (by decide)) (by decide), by decide⟩

end Toontagram
