import Toontagram.Lib.Run
import Toontagram.Storage.ProfileCall

/-!
# Registrations and profile edits

Any number of calls of `Storage/ProfileCall.lean` at once, by any users. The answers of
all calls come in any order, between the puts and lookups of the cartoons.

No name is drawn twice, so each path is put once, before its URL is handed out.
`Profiles.Sound` ties the documents to the calls, and `profile_urls` is what follows from
it for every run.
-/

namespace Toontagram

open Lib (ObjectStore PutReply run run_append run_inv)
open ImageService (pairRef pictureRef)

variable {Image Data : Type}

/-! ## All calls together -/

/-- The server and the calls that were made. -/
structure Profiles (Image Data : Type) where
  firestore : Firestore
  storage : Storage Data
  calls : List (ProfileCall Image)

/-- A call is made, the `i`-th call gets an answer, or a picture of a cartoon is put or
looked up. -/
inductive ProfileEvent (Image Data : Type) where
  | call (args : ProfileArgs Image) (fileName : String)
  | putData (i : Nat) (reply : PutReply String)
  | downloadURL (i : Nat) (choice : Option String)
  | createUser (i : Nat) (uid : Option Uid)
  | write (i : Nat) (ok : Bool)
  | pagePut (title : String) (k : Fin 5) (data : Data) (reply : PutReply String)
  | pageURL (title : String) (k : Fin 5) (choice : Option String)
deriving DecidableEq

namespace Profiles

/-- Nobody has registered yet. -/
def start : Profiles Image Data := ⟨∅, .empty, []⟩

/-- A string as `uuidString` returns it is one component of a path, and no string is
returned twice. -/
def unused (s : Profiles Image Data) (fileName : String) : Bool :=
  StoragePath.standardized fileName = [fileName] &&
    s.calls.all fun c => c.fileName ≠ fileName

/-- The `i`-th call goes on to `stage`. -/
def move (s : Profiles Image Data) (i : Nat) (c : ProfileCall Image) (storage : Storage Data)
    (stage : Stage) : Profiles Image Data :=
  { s with storage := storage, calls := s.calls.set i { c with stage := stage } }

/-- One event. -/
def step (jpegData : Image → Option Data) (s : Profiles Image Data) :
    ProfileEvent Image Data → Option (Profiles Image Data)
  | .call args fileName =>
    if s.unused fileName then
      some { s with calls := s.calls ++ [.start jpegData args fileName] }
    else none
  | .putData i reply => (s.calls[i]?).bind fun c =>
    (c.putData jpegData reply s.storage).map fun x => s.move i c x.1 x.2
  | .downloadURL i choice => (s.calls[i]?).bind fun c =>
    (c.downloadURL choice s.storage).map fun x => s.move i c x.1 x.2
  | .createUser i uid => (s.calls[i]?).bind fun c =>
    match c.stage with
    | .createUser str => some (s.move i c s.storage (match uid with
        | none => .failed
        | some uid => .write uid str))
    | _ => none
  | .write i ok => (s.calls[i]?).bind fun c =>
    match c.stage with
    | .write uid str => some { s.move i c s.storage (.written uid str ok) with
        firestore := if ok then (c.args.document uid str).apply s.firestore else s.firestore }
    | _ => none
  | .pagePut title k data reply =>
    if reply.ok then
      some { s with storage := s.storage.putData (pictureRef title k) data reply.stop }
    else some s
  | .pageURL title k choice =>
    some { s with storage := (s.storage.downloadURL (pictureRef title k) choice).1 }

/-- The call that the event belongs to. -/
def caller (s : Profiles Image Data) : ProfileEvent Image Data → Option Nat
  | .call _ _ => some s.calls.length
  | .putData i _ | .downloadURL i _ | .createUser i _ | .write i _ => some i
  | .pagePut _ _ _ _ | .pageURL _ _ _ => none

end Profiles

/-! ## What one event does -/

namespace Profiles

variable {jpegData : Image → Option Data} {s s' t : Profiles Image Data}
  {e : ProfileEvent Image Data} {i : Nat} {c : ProfileCall Image}

/-- What an event does: a call is made, a call goes on, a document is written, or a
cartoon's picture is stored. -/
theorem step_cases (h : s.step jpegData e = some s') :
    (∃ args fileName, s.unused fileName = true ∧
      s' = { s with calls := s.calls ++ [.start jpegData args fileName] }) ∨
    (∃ i c storage stage, s.caller e = some i ∧ s.calls[i]? = some c ∧
      c.Goes jpegData s.storage storage stage ∧ s' = s.move i c storage stage) ∨
    (∃ i c uid str ok, s.caller e = some i ∧ s.calls[i]? = some c ∧ c.stage = .write uid str ∧
      s' = { s.move i c s.storage (.written uid str ok) with
        firestore := if ok then (c.args.document uid str).apply s.firestore else s.firestore }) ∨
    (∃ storage, s' = { s with storage := storage } ∧
      ∀ c : ProfileCall Image, c.Named → c.Stored jpegData s.storage →
        c.Stored jpegData storage) := by
  cases e with
  | call args fileName =>
    simp only [step] at h
    split at h
    next hunused => exact .inl ⟨args, fileName, hunused, (Option.some.inj h).symm⟩
    next => cases h
  | putData i reply =>
    obtain ⟨c, hc, h⟩ := Option.bind_eq_some_iff.mp h
    obtain ⟨⟨storage, stage⟩, hput, rfl⟩ := Option.map_eq_some_iff.mp h
    exact .inr (.inl ⟨i, c, storage, stage, rfl, hc, ProfileCall.goes_putData hput, rfl⟩)
  | downloadURL i choice =>
    obtain ⟨c, hc, h⟩ := Option.bind_eq_some_iff.mp h
    obtain ⟨⟨storage, stage⟩, hurl, rfl⟩ := Option.map_eq_some_iff.mp h
    exact .inr (.inl ⟨i, c, storage, stage, rfl, hc, ProfileCall.goes_downloadURL hurl, rfl⟩)
  | createUser i uid =>
    obtain ⟨c, hc, h⟩ := Option.bind_eq_some_iff.mp h
    split at h
    next str hstage =>
      obtain rfl := Option.some.inj h
      refine .inr (.inl ⟨i, c, s.storage, _, rfl, hc, ?_, rfl⟩)
      cases uid with
      | none => exact .fail (by rw [hstage]; rfl)
      | some uid => exact .createUser uid hstage
    next => cases h
  | write i ok =>
    obtain ⟨c, hc, h⟩ := Option.bind_eq_some_iff.mp h
    split at h
    next uid str hstage =>
      exact .inr (.inr (.inl ⟨i, c, uid, str, ok, rfl, hc, hstage, (Option.some.inj h).symm⟩))
    next => cases h
  | pagePut title k data reply =>
    simp only [step] at h
    split at h
    next =>
      refine .inr (.inr (.inr ⟨_, (Option.some.inj h).symm, fun c hname hstored => ?_⟩))
      exact hstored.putData (hname.pictureRef_ne title k) data reply.stop
    next =>
      exact .inr (.inr (.inr ⟨s.storage, (Option.some.inj h).symm, fun c _ hstored => hstored⟩))
  | pageURL title k choice =>
    refine .inr (.inr (.inr ⟨_, (Option.some.inj h).symm, fun c _ hstored => ?_⟩))
    exact hstored.downloadURL _ choice

/-- A call that is over stays as it is. -/
theorem step_ended (h : s.step jpegData e = some s') (hc : s.calls[i]? = some c)
    (hended : c.stage.ended = true) : s'.calls[i]? = some c := by
  have hset : ∀ j (d d' : ProfileCall Image), s.calls[j]? = some d → d.stage.ended = false →
      (s.calls.set j d')[i]? = some c := by
    intro j d d' hd hopen
    rw [List.getElem?_set_ne, hc]
    rintro rfl
    obtain rfl := Option.some.inj (hc.symm.trans hd)
    rw [hended] at hopen
    cases hopen
  obtain ⟨args, fileName, -, rfl⟩ | ⟨j, d, storage, stage, -, hd, hgoes, rfl⟩ |
    ⟨j, d, uid, str, ok, -, hd, hstage, rfl⟩ | ⟨storage, rfl, -⟩ := step_cases h
  · exact (List.getElem?_append_left (List.getElem?_eq_some_iff.mp hc).1).trans hc
  · exact hset j d _ hd hgoes.ended
  · exact hset j d _ hd (by rw [hstage]; rfl)
  · exact hc

theorem getElem?_move (hc : s.calls[i]? = some c) (storage : Storage Data) (stage : Stage) :
    (s.move i c storage stage).calls[i]? = some { c with stage := stage } :=
  List.getElem?_set_self (List.getElem?_eq_some_iff.mp hc).1

/-- A call after the `i`-th has gone on: it is this one, or it has another name. -/
theorem mem_move {storage : Storage Data} {stage : Stage} {c' : ProfileCall Image}
    (hfresh : (s.calls.map ProfileCall.fileName).Nodup) (hc : s.calls[i]? = some c)
    (hc' : c' ∈ (s.move i c storage stage).calls) :
    c' = { c with stage := stage } ∨ c' ∈ s.calls ∧ c'.fileName ≠ c.fileName := by
  obtain ⟨j, hj⟩ := List.mem_iff_getElem?.mp hc'
  by_cases hij : i = j
  · subst hij
    exact .inl (Option.some.inj (hj.symm.trans (getElem?_move hc _ _)))
  · rw [move, List.getElem?_set_ne hij] at hj
    refine .inr ⟨List.mem_of_getElem? hj, fun hname => hij ?_⟩
    have hmap : ∀ {k : Nat} {d : ProfileCall Image}, s.calls[k]? = some d →
        (s.calls.map ProfileCall.fileName)[k]? = some d.fileName := fun hd => by
      rw [List.getElem?_map, hd, Option.map_some]
    obtain ⟨hi, -⟩ := List.getElem?_eq_some_iff.mp (hmap hc)
    exact (List.getElem?_inj hi hfresh).mp ((hmap hc).trans (hname ▸ (hmap hj).symm))

/-- No other call changes. -/
theorem mem_move_of_ne {storage : Storage Data} {stage : Stage} {c' : ProfileCall Image}
    (hc : s.calls[i]? = some c) (hc' : c' ∈ s.calls) (hne : c' ≠ c) :
    c' ∈ (s.move i c storage stage).calls := by
  obtain ⟨j, hj⟩ := List.mem_iff_getElem?.mp hc'
  have hij : i ≠ j := by
    rintro rfl
    exact hne (Option.some.inj (hj.symm.trans hc))
  exact List.mem_of_getElem? ((List.getElem?_set_ne hij).trans hj)

/-! ## The invariant -/

/-- The names are all different, every call has stored what its stage says, and the URLs in
a document are those of one call that has written it. -/
structure Sound (jpegData : Image → Option Data) (s : Profiles Image Data) : Prop where
  named : ∀ c ∈ s.calls, c.Named
  fresh : (s.calls.map ProfileCall.fileName).Nodup
  stored : ∀ c ∈ s.calls, c.Stored jpegData s.storage
  addressed : ∀ c ∈ s.calls, c.Addressed
  docs : ∀ uid data, s.firestore.lookup ⟨.user, uid⟩ = some data →
    ∃ c ∈ s.calls, ∃ str, c.stage = .written uid str true ∧
      ∀ k, Dictionary.string? data (urlField k) = some (str.get k)

theorem Sound.start : (start : Profiles Image Data).Sound jpegData where
  named := fun c hc => absurd hc List.not_mem_nil
  fresh := List.nodup_nil
  stored := fun c hc => absurd hc List.not_mem_nil
  addressed := fun c hc => absurd hc List.not_mem_nil
  docs := fun uid data h => by cases h

/-- A call is made. -/
theorem Sound.call (h : s.Sound jpegData) {args : ProfileArgs Image} {fileName : String}
    (hunused : s.unused fileName = true) :
    Sound jpegData { s with calls := s.calls ++ [.start jpegData args fileName] } := by
  obtain ⟨hname, hnew⟩ := (Bool.and_eq_true_iff).mp hunused
  replace hname := of_decide_eq_true hname
  refine ⟨?_, ?_, ?_, ?_, fun uid data hdata => ?_⟩
  · exact List.forall_mem_append.mpr ⟨h.named, List.forall_mem_singleton.mpr hname⟩
  · rw [List.map_append, List.nodup_append]
    refine ⟨h.fresh, List.nodup_singleton _, fun a ha b hb => ?_⟩
    obtain ⟨c, hc, rfl⟩ := List.mem_map.mp ha
    obtain rfl := List.mem_singleton.mp hb
    exact of_decide_eq_true (List.all_eq_true.mp hnew c hc)
  · exact List.forall_mem_append.mpr ⟨h.stored,
      List.forall_mem_singleton.mpr (ProfileCall.stored_start jpegData s.storage args fileName)⟩
  · refine List.forall_mem_append.mpr ⟨h.addressed, List.forall_mem_singleton.mpr ?_⟩
    unfold ProfileCall.start
    split <;> trivial
  · obtain ⟨c, hc, hdoc⟩ := h.docs uid data hdata
    exact ⟨c, List.mem_append_left _ hc, hdoc⟩

/-- A call that is not over goes on, and the others are left alone. -/
theorem Sound.move (h : s.Sound jpegData) (hc : s.calls[i]? = some c)
    (hopen : c.stage.ended = false) {storage : Storage Data} {stage : Stage}
    (hself : ProfileCall.Stored jpegData storage { c with stage := stage })
    (hmine : ProfileCall.Addressed { c with stage := stage })
    (hother : ∀ c' ∈ s.calls, c'.fileName ≠ c.fileName → c'.Stored jpegData storage) :
    (s.move i c storage stage).Sound jpegData := by
  have hmem := List.mem_of_getElem? hc
  refine ⟨fun c' hc' => ?_, ?_, fun c' hc' => ?_, fun c' hc' => ?_, fun uid data hdata => ?_⟩
  · obtain rfl | ⟨hc', -⟩ := mem_move h.fresh hc hc'
    · exact h.named c hmem
    · exact h.named c' hc'
  · have hname : (s.calls.map ProfileCall.fileName)[i]? = some c.fileName := by
      rw [List.getElem?_map, hc, Option.map_some]
    obtain ⟨hi, hget⟩ := List.getElem?_eq_some_iff.mp hname
    rw [Profiles.move, List.map_set, ← hget, List.set_getElem_self]
    exact h.fresh
  · obtain rfl | ⟨hc', hne⟩ := mem_move h.fresh hc hc'
    · exact hself
    · exact hother c' hc' hne
  · obtain rfl | ⟨hc', -⟩ := mem_move h.fresh hc hc'
    · exact hmine
    · exact h.addressed c' hc'
  · obtain ⟨c', hc', str, hstage, hdoc⟩ := h.docs uid data hdata
    refine ⟨c', mem_move_of_ne hc hc' ?_, str, hstage, hdoc⟩
    rintro rfl
    rw [hstage] at hopen
    cases hopen

/-- A call that has its document written: both URLs of the document are its own. -/
theorem Sound.write (h : s.Sound jpegData) {uid : Uid} {str : Vector String 2} (hc : c ∈ s.calls)
    (hstage : c.stage = .written uid str true) :
    Sound jpegData { s with firestore := (c.args.document uid str).apply s.firestore } := by
  refine { h with docs := fun uid' data hdata => ?_ }
  rcases ProfileArgs.lookup_document c.args hdata with ⟨rfl, hurls⟩ | hdata
  · exact ⟨c, hc, str, hstage, hurls⟩
  · exact h.docs uid' data hdata

theorem Sound.step (h : s.Sound jpegData) (hstep : s.step jpegData e = some s') :
    s'.Sound jpegData := by
  obtain ⟨args, fileName, hunused, rfl⟩ | ⟨i, c, storage, stage, -, hc, hgoes, rfl⟩ |
    ⟨i, c, uid, str, ok, -, hc, hstage, rfl⟩ | ⟨storage, rfl, hstored⟩ := step_cases hstep
  · exact h.call hunused
  · have hmem := List.mem_of_getElem? hc
    have hname := h.named c hmem
    exact h.move hc hgoes.ended (hgoes.stored hname (h.stored c hmem))
      (hgoes.addressed (h.addressed c hmem)) fun c' hc' hne =>
        hgoes.other hname (h.named c' hc') hne (h.stored c' hc')
  · have hmem := List.mem_of_getElem? hc
    have hself : ProfileCall.Stored jpegData s.storage { c with stage := .written uid str ok } := by
      have hc' := h.stored c hmem
      refine ⟨fun _ => hc'.encoded (by rw [hstage]; exact Stage.noConfusion), fun k _ => ?_,
        fun k u hu => ?_⟩
      · exact hc'.object k (by rw [hstage]; rfl)
      · exact hc'.url k u (by rw [hstage]; exact hu)
    have hmine : ProfileCall.Addressed { c with stage := .written uid str ok } := by
      have hc' := h.addressed c hmem
      rw [ProfileCall.Addressed, hstage] at hc'
      exact hc'
    have hmoved := h.move hc (by rw [hstage]; rfl) hself hmine fun c' hc' _ => h.stored c' hc'
    cases ok with
    | false => exact hmoved
    | true =>
      have hwritten := List.mem_of_getElem? (getElem?_move hc s.storage (.written uid str true))
      have hdone := hmoved.write hwritten rfl
      exact hdone
  · exact { h with stored := fun c hc => hstored c (h.named c hc) (h.stored c hc) }

/-- The documents change only when a call that has come to its end writes one. -/
theorem firestore_step (h : s.step jpegData e = some s') :
    s'.firestore = s.firestore ∨ ∃ i c, s.caller e = some i ∧ s'.calls[i]? = some c ∧
      c.stage.ended = true ∧ c.stage ≠ .failed := by
  obtain ⟨args, fileName, -, rfl⟩ | ⟨i, c, storage, stage, -, -, -, rfl⟩ |
    ⟨i, c, uid, str, ok, hcaller, hc, -, rfl⟩ | ⟨storage, rfl, -⟩ := step_cases h
  · exact .inl rfl
  · exact .inl rfl
  · have hwritten := getElem?_move hc s.storage (.written uid str ok)
    exact .inr ⟨i, _, hcaller, hwritten, rfl, Stage.noConfusion⟩
  · exact .inl rfl

end Profiles

/-- For every interleaving of registrations, edits and cartoons, and every one that comes
after it. The two URLs in the document of a user are those of one call for this user, and
serve its profile image and its background image, now and ever after. A call that fails
on its way changes no document. -/
theorem profile_urls {jpegData : Image → Option Data} {es fs : List (ProfileEvent Image Data)}
    {s t : Profiles Image Data} (h : run (Profiles.step jpegData) .start es = some s)
    (hlater : run (Profiles.step jpegData) s fs = some t) :
    (∀ uid data, s.firestore.lookup ⟨.user, uid⟩ = some data →
      ∃ (i : Nat) (c : ProfileCall Image) (str : Vector String 2),
        s.calls[i]? = some c ∧ c.stage = .written uid str true ∧
        (∀ user, c.args.editor = some user → user = uid) ∧
        ∀ k : Fin 2, Dictionary.string? data (urlField k) = some (str.get k) ∧
          ∃ bytes, jpegData (c.args.image k) = some bytes ∧
            s.storage.resolve (str.get k) = some bytes ∧
            t.storage.resolve (str.get k) = some bytes) ∧
    ∀ (i : Nat) (c : ProfileCall Image), t.calls[i]? = some c → c.stage = .failed →
      ∀ fs₁ e fs₂ u v, fs = fs₁ ++ e :: fs₂ → run (Profiles.step jpegData) s fs₁ = some u →
        u.step jpegData e = some v → u.caller e = some i → v.firestore = u.firestore := by
  have hstep : ∀ (s : Profiles Image Data) e s', s.Sound jpegData → s.step jpegData e = some s' →
      s'.Sound jpegData := fun _ _ _ hs => hs.step
  have hended : ∀ {i : Nat} {c : ProfileCall Image} {u v : Profiles Image Data} {es},
      u.calls[i]? = some c → c.stage.ended = true → run (Profiles.step jpegData) u es = some v →
      v.calls[i]? = some c := fun hc hended hrun =>
    run_inv (P := fun u => u.calls[_]? = some _)
      (fun _ _ _ hu hstep => Profiles.step_ended hstep hu hended) _ hc hrun
  have hs : s.Sound jpegData := run_inv hstep es .start h
  have ht : t.Sound jpegData := run_inv hstep fs hs hlater
  constructor
  · intro uid data hdata
    obtain ⟨c, hc, str, hstage, hurls⟩ := hs.docs uid data hdata
    obtain ⟨i, hi⟩ := List.mem_iff_getElem?.mp hc
    have hct := List.mem_of_getElem? (hended hi (by rw [hstage]; rfl) hlater)
    have hserves : ∀ {w : Profiles Image Data}, c ∈ w.calls → w.Sound jpegData → ∀ k,
        w.storage.resolve (str.get k) = jpegData (c.args.image k) := fun hmem hw k => by
      rw [((hw.stored c hmem).url k _ (by rw [hstage]; rfl)).resolve]
      exact (hw.stored c hmem).object k (by rw [hstage]; rfl)
    have hmine := hs.addressed c hc
    rw [ProfileCall.Addressed, hstage] at hmine
    refine ⟨i, c, str, hi, hstage, hmine, fun k => ⟨hurls k, ?_⟩⟩
    obtain ⟨bytes, hbytes⟩ := Option.isSome_iff_exists.mp
      ((hs.stored c hc).encoded (by rw [hstage]; exact Stage.noConfusion) k)
    exact ⟨bytes, hbytes, (hserves hc hs k).trans hbytes, (hserves hct ht k).trans hbytes⟩
  · rintro i c hc hfailed fs₁ e fs₂ u v rfl hu hv hcaller
    rcases Profiles.firestore_step hv with hsame | ⟨j, d, hj, hd, hdended, hne⟩
    · exact hsame
    · obtain rfl := Option.some.inj (hcaller.symm.trans hj)
      rw [run_append, hu, Option.bind_some, run, hv, Option.bind_some] at hlater
      obtain rfl := Option.some.inj (hc.symm.trans (hended hd hdended hlater))
      exact absurd hfailed hne

namespace ProfileEvent

/-- A put that succeeds. -/
def stored (i : Nat) : ProfileEvent String String := .putData i ⟨true, []⟩

/-- Ann and Bob register at the same time. -/
def twoRegister : List (ProfileEvent String String) :=
  [.call (.userRegister "ann@post" "Ann" "ann" "" "ann, profile" "ann, back") "id0",
   .call (.userRegister "bob@post" "Bob" "bob" "" "bob, profile" "bob, back") "id1",
   stored 0, stored 1, stored 1, stored 0,
   .downloadURL 1 (some "u1"), .downloadURL 0 (some "u0"), .downloadURL 0 (some "v0"),
   .downloadURL 1 (some "v1"), .createUser 1 (some "bob"), .createUser 0 (some "ann"),
   .write 0 true, .write 1 true]

/-- Ann edits her profile twice, and the second put of the first edit fails; a cartoon is
uploaded in between. -/
def annEdits (k : Fin 5) : List (ProfileEvent String String) :=
  let ann : User := { User.init .empty with uid := "ann" }
  [.call (.editUserData ann "new profile" "new back" "") "id2",
   .call (.editUserData ann "last profile" "last back" "") "id3",
   stored 2, stored 3, .putData 2 ⟨false, []⟩, .pagePut "Monday" k "a page" ⟨true, ["u0"]⟩,
   stored 3, .downloadURL 3 (some "u3"), .downloadURL 3 (some "v3"), .write 3 true]

end ProfileEvent

/-- `profile_urls` when two users register and one of them edits her profile. -/
theorem profile_urls_annEdits : ∃ s t : Profiles String String,
    run (Profiles.step some) .start ProfileEvent.twoRegister = some s ∧
    run (Profiles.step some) s (ProfileEvent.annEdits 4) = some t ∧
    (∃ c, t.calls[2]? = some c ∧ c.stage = .failed) ∧
    ∃ data c str, s.firestore.lookup ⟨.user, "ann"⟩ = some data ∧ c ∈ s.calls ∧
      c.stage = .written "ann" str true ∧
      ∀ k : Fin 2, Dictionary.string? data (urlField k) = some (str.get k) ∧
        t.storage.resolve (str.get k) = some (c.args.image k) := by
  let s := (run (Profiles.step some) .start ProfileEvent.twoRegister).get (by decide)
  have hs : run (Profiles.step some) .start ProfileEvent.twoRegister = some s :=
    (Option.some_get _).symm
  let t := (run (Profiles.step some) s (ProfileEvent.annEdits 4)).get (by decide)
  have ht : run (Profiles.step some) s (ProfileEvent.annEdits 4) = some t :=
    (Option.some_get _).symm
  have hann : (s.firestore.lookup ⟨.user, "ann"⟩).isSome = true := by decide
  have hstage : (t.calls[2]?).map ProfileCall.stage = some .failed := by decide
  have hfailed := Option.map_eq_some_iff.mp hstage
  obtain ⟨data, hdata⟩ := Option.isSome_iff_exists.mp hann
  obtain ⟨i, c, str, hc, hstage, -, hurls⟩ := (profile_urls hs ht).1 "ann" data hdata
  refine ⟨s, t, hs, ht, hfailed, data, c, str, hdata, List.mem_of_getElem? hc, hstage, fun k => ?_⟩
  obtain ⟨hurl, bytes, hbytes, -, hlater⟩ := hurls k
  rw [← hbytes] at hlater
  exact ⟨hurl, hlater⟩

end Toontagram
