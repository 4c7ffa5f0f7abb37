import Toontagram.Api.World
import Toontagram.Lib.Tally

/-!
# The calls of the like button

`likeCartoon` and `unLikeCartoon` differ in a sign: each overwrites the number
of likes by the one of the cartoon it was given plus or minus one, and writes
the document of the signed-in user among the likes of the cartoon; from its
acknowledgement follows the document of the cartoon among the likes of the
user, and from that the completion of the screen. `LikeTap` is one call of
either that gets past its guards, and `LikeTap.Stems` lists the calls that can
be in flight on its account.
-/

namespace Toontagram

open Lib (DocWrite sign)

/-- A call of `likeCartoon` (`didLike`) or `unLikeCartoon` that gets past its
guards, for the signed-in user `uid`. -/
structure LikeTap where
  uid : Uid
  cartoon : Cartoon
  user : User
  didLike : Bool
  guarded : didLike = false → cartoon.like > 0

namespace LikeTap

variable (t : LikeTap)

def action : Action :=
  if t.didLike then .likeCartoon (some t.uid) t.cartoon t.user
  else .unLikeCartoon (some t.uid) t.cartoon

def completion : ScreenCompletion := if t.didLike then .liked t.cartoon t.user else .ignore

/-- The write of the number of likes. -/
def counter : Call :=
  ⟨some t.uid, .write (.updateData ⟨.cartoon, t.cartoon.cartoonId⟩
    (.ofList [("like", .int (t.cartoon.like + sign t.didLike))])) (.screen .ignore)⟩

/-- The write among the likes of the cartoon. -/
def member : Call :=
  ⟨some t.uid, .write (.mark t.didLike ⟨.cartoonLikes t.cartoon.cartoonId, t.uid⟩)
    (if t.didLike then .likeCartoon t.uid t.cartoon.cartoonId t.completion
      else .unLikeCartoon t.uid t.cartoon.cartoonId t.completion)⟩

/-- The write among the likes of the user. -/
def mirror : Call :=
  ⟨some t.uid, .write (.mark t.didLike ⟨.userLikes t.uid, t.cartoon.cartoonId⟩)
    (.screen t.completion)⟩

theorem calls_action : t.action.calls = [t.counter, t.member] := by
  cases hb : t.didLike with
  | true =>
    simp [action, Action.calls, CartoonService.likeCartoon, counter, member, completion,
      DocWrite.mark, sign, hb]
  | false =>
    have hguard : t.cartoon.like > 0 := t.guarded hb
    simp [action, Action.calls, CartoonService.unLikeCartoon, counter, member, completion,
      DocWrite.mark, sign, hb, hguard, Int.sub_eq_add_neg]

section exec

variable {r : Reply} {s : Firestore}

theorem member_calls : (t.member.exec r s).2.calls = [t.mirror] := by
  cases hb : t.didLike <;>
    simp [Call.exec, member, mirror, Completion.run, DocWrite.mark, hb]

theorem mirror_calls : ∀ k ∈ (t.mirror.exec r s).2.calls, ∃ toUid id data,
    k = ⟨some t.uid, .write (.setData ⟨.userFeedback toUid, id⟩ data) (.screen .ignore)⟩ := by
  intro k hk
  cases hb : t.didLike with
  | false =>
    simp [Call.exec, mirror, completion, hb, Completion.run, ScreenCompletion.run] at hk
  | true =>
    simp only [Call.exec, mirror, completion, hb, if_true, Completion.run,
      ScreenCompletion.run] at hk
    obtain ⟨-, -, -, rfl⟩ := FeedBackService.mem_uploadFeedBack hk
    exact ⟨_, _, _, rfl⟩

end exec

/-- The call can be in flight on account of the tap. -/
inductive Stems : Action → Call → Prop where
  | counter (t : LikeTap) : Stems t.action t.counter
  | member (t : LikeTap) : Stems t.action t.member
  | mirror (t : LikeTap) : Stems t.action t.mirror
  | feedback {t : LikeTap} {toUid : Uid} {id : DocID} {data : Dictionary} :
      Stems t.action
        ⟨some t.uid, .write (.setData ⟨.userFeedback toUid, id⟩ data) (.screen .ignore)⟩

theorem Stems.exec {o : Action} {k : Call} (h : Stems o k) {r : Reply} {s : Firestore} :
    ∀ k' ∈ (k.exec r s).2.calls, Stems o k' := by
  intro k' hk'
  cases h with
  | counter t => cases hk'
  | member t =>
    rw [t.member_calls] at hk'
    rw [List.mem_singleton.mp hk']
    exact .mirror t
  | mirror t =>
    obtain ⟨toUid, id, data, rfl⟩ := t.mirror_calls k' hk'
    exact .feedback
  | feedback => cases hk'

end LikeTap

end Toontagram
