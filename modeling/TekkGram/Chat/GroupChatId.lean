import Mathlib.Data.List.Basic
import Mathlib.Data.Set.Insert
import TekkGram.Model.Query
import TekkGram.Model.Strings

/-!
# The id of a conversation

A conversation is named by its two users, the greater id first. Strings are ordered by their UTF-16
code units. The order of the arguments does not matter, and ids without the separator can be read
off the name again.
-/

namespace TekkGram

/-- `compareTo`: the lexicographic order of the code units. -/
def compareTo (s t : String) : Int :=
  match compare (codeUnits s) (codeUnits t) with
  | .lt => -1
  | .eq => 0
  | .gt => 1

/-- The name of the conversation of two users, written as the screen writes it. -/
def groupChatIdOf (first second : UserId) : ChatGroupId := first ++ "-" ++ second

/-- The `groupChatId` that `ChatMessageScreen` computes for the signed-in user. -/
def groupChatId (authUserModel : Option UserId) (userId : UserId) : ChatGroupId :=
  match authUserModel with
  | none => ""
  | some authUserModel =>
    if compareTo authUserModel userId > 0 then groupChatIdOf authUserModel userId
    else groupChatIdOf userId authUserModel

/-- Exactly one of two different strings comes after the other. -/
theorem compareTo_pos_iff {s t : String} (hne : s ≠ t) :
    0 < compareTo s t ↔ ¬ 0 < compareTo t s := by
  have hcompare : compare (codeUnits s) (codeUnits t) ≠ .eq := by
    rw [ne_eq, Std.LawfulEqCmp.compare_eq_iff_eq, codeUnits_inj]
    exact hne
  have hswap : compare (codeUnits t) (codeUnits s) = (compare (codeUnits s) (codeUnits t)).swap :=
    Std.OrientedOrd.eq_swap
  unfold compareTo
  rw [hswap]
  cases hcase : compare (codeUnits s) (codeUnits t) with
  | eq => exact absurd hcase hcompare
  | lt => decide
  | gt => decide

theorem groupChatId_some (a b : UserId) : groupChatId (some a) b =
    if 0 < compareTo a b then groupChatIdOf a b else groupChatIdOf b a := rfl

/-- The name is that of the two users in one of the two orders. -/
theorem groupChatId_eq_or (a b : UserId) :
    groupChatId (some a) b = groupChatIdOf a b ∨ groupChatId (some a) b = groupChatIdOf b a := by
  rw [groupChatId_some]
  split
  · exact .inl rfl
  · exact .inr rfl

/-- Two users see the same conversation. -/
theorem groupChatId_symm (a b : UserId) : groupChatId (some a) b = groupChatId (some b) a := by
  by_cases hab : a = b
  · rw [hab]
  · have hiff := compareTo_pos_iff hab
    rw [groupChatId_some, groupChatId_some]
    by_cases hpos : 0 < compareTo a b
    · rw [if_pos hpos, if_neg (hiff.mp hpos)]
    · rw [if_neg hpos, if_pos (by_contra fun hnot => hpos (hiff.mpr hnot))]

/-- A name with one separator splits in one way. -/
theorem groupChatIdOf_inj {a b c d : UserId} (ha : '-' ∉ a.toList) (hb : '-' ∉ b.toList)
    (h : groupChatIdOf a b = groupChatIdOf c d) : a = c ∧ b = d := by
  have hlists : a.toList ++ '-' :: b.toList = c.toList ++ '-' :: d.toList := by
    simpa [groupChatIdOf] using congrArg String.toList h
  obtain ⟨hac, -, hbd⟩ := (List.append_cons_inj_of_notMem ha hb).mp hlists
  exact ⟨String.toList_injective hac, String.toList_injective hbd⟩

/-- Ids without the separator give the same name only to the same two users. -/
theorem groupChatId_inj {a b c d : UserId} (ha : '-' ∉ a.toList) (hb : '-' ∉ b.toList)
    (h : groupChatId (some a) b = groupChatId (some c) d) : (a = c ∧ b = d) ∨ (a = d ∧ b = c) := by
  rcases groupChatId_eq_or a b with hab | hab <;> rcases groupChatId_eq_or c d with hcd | hcd <;>
    rw [hab, hcd] at h
  · exact .inl (groupChatIdOf_inj ha hb h)
  · exact .inr (groupChatIdOf_inj ha hb h)
  · obtain ⟨hbc, had⟩ := groupChatIdOf_inj hb ha h
    exact .inr ⟨had, hbc⟩
  · obtain ⟨hbd, hac⟩ := groupChatIdOf_inj hb ha h
    exact .inl ⟨hac, hbd⟩

/-- Each pair of users has its own conversation. -/
theorem groupChatId_symm_and_inj :
    (∀ a b : UserId, groupChatId (some a) b = groupChatId (some b) a) ∧
      ∀ a b c d : UserId, '-' ∉ a.toList → '-' ∉ b.toList →
        groupChatId (some a) b = groupChatId (some c) d → ({a, b} : Set UserId) = {c, d} := by
  refine ⟨groupChatId_symm, fun a b c d ha hb h => ?_⟩
  rcases groupChatId_inj ha hb h with ⟨rfl, rfl⟩ | ⟨rfl, rfl⟩
  · rfl
  · exact Set.pair_comm a b

/-- The pairs of two conversations with one name. -/
theorem groupChatId_symm_and_inj_pair : ({"ann", "bob"} : Set UserId) = {"bob", "ann"} :=
  groupChatId_symm_and_inj.2 "ann" "bob" "bob" "ann" (by decide) (by decide)
    (groupChatId_symm_and_inj.1 "ann" "bob")

end TekkGram
