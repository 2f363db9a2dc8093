import Mathlib.Data.List.Sort
import TekkGram.Model.Records

/-!
# Sorting comments

A request for a post asks for its comments by date, in one of two directions, or as they
come. Comments reach the sort as a lazy sequence whose items are decoded on access.
-/

namespace TekkGram

inductive DateSorting where
  | newestOnTop
  | oldestOnTop
  deriving DecidableEq, Repr

/-- What a view asks for. -/
structure RequestForPostAndComments where
  postId : PostId
  sortByCreatedAt : Bool := true
  dateSorting : DateSorting := .newestOnTop
  limit : Option Nat := none
  deriving DecidableEq, Repr

/-- A lazy sequence: items are computed on access, and `none` is an item whose computation
throws. -/
abbrev Iterable (α : Type) := List (Option α)

/-- `toList`, which computes every item. -/
def Iterable.toList {α : Type} (xs : Iterable α) : Option (List α) := xs.mapM id

/-- The `sort` of Dart's lists: it orders the elements by the comparison and need not be stable. -/
structure ListSort (α : Type) where
  sort : (α → α → Ordering) → List α → List α
  perm (cmp : α → α → Ordering) (xs : List α) : (sort cmp xs).Perm xs
  sorted (cmp : α → α → Ordering) [Std.TransCmp cmp] (xs : List α) :
    (sort cmp xs).Pairwise fun a b => (cmp a b).isLE = true

/-- The sort by insertion, which Dart uses for short lists. -/
def ListSort.insertion (α : Type) : ListSort α where
  sort cmp xs := xs.insertionSort fun a b => (cmp a b).isLE = true
  perm cmp xs := List.perm_insertionSort _ xs
  sorted cmp _ xs := by
    have htotal : Std.Total fun a b => (cmp a b).isLE = true := by
      refine ⟨fun a b => ?_⟩
      have hswap : cmp b a = (cmp a b).swap := Std.OrientedCmp.eq_swap
      rw [hswap]
      cases cmp a b <;> simp
    have htrans : IsTrans α fun a b => (cmp a b).isLE = true :=
      ⟨fun _ _ _ => Std.TransCmp.isLE_trans⟩
    exact List.pairwise_insertionSort _ xs

/-- The sorts of two lists agree exactly when these hold the same elements, if no two different
ones are equal in the comparison. -/
theorem ListSort.sort_eq_iff {α : Type} (dart : ListSort α) (cmp : α → α → Ordering)
    [Std.TransCmp cmp] {xs ys : List α} (h : ∀ a ∈ xs, ∀ b ∈ xs, cmp a b = .eq → a = b) :
    dart.sort cmp xs = dart.sort cmp ys ↔ xs.Perm ys := by
  constructor
  · intro heq
    exact (dart.perm cmp xs).symm.trans (heq ▸ dart.perm cmp ys)
  · intro hperm
    have hsorts : (dart.sort cmp xs).Perm (dart.sort cmp ys) :=
      (dart.perm cmp xs).trans (hperm.trans (dart.perm cmp ys).symm)
    refine hsorts.eq_of_pairwise ?_ (dart.sorted cmp xs) (dart.sorted cmp ys)
    intro a b ha hb hab hba
    have ha' : a ∈ xs := (dart.perm cmp xs).mem_iff.mp ha
    have hb' : b ∈ xs := ((dart.perm cmp ys).trans hperm.symm).mem_iff.mp hb
    exact h a ha' b hb' (Std.OrientedCmp.isLE_antisymm hab hba)

/-- The comparison of two comments by date. -/
def RequestForPostAndComments.compare (request : RequestForPostAndComments) (a b : Comment) :
    Ordering :=
  match request.dateSorting with
  | .newestOnTop => Ord.compare b.createdAt a.createdAt
  | .oldestOnTop => Ord.compare a.createdAt b.createdAt

section Compare

variable {request : RequestForPostAndComments}

theorem RequestForPostAndComments.compare_of_newestOnTop
    (h : request.dateSorting = .newestOnTop) (a b : Comment) :
    request.compare a b = Ord.compare b.createdAt a.createdAt := by
  rw [RequestForPostAndComments.compare, h]

theorem RequestForPostAndComments.compare_of_oldestOnTop
    (h : request.dateSorting = .oldestOnTop) (a b : Comment) :
    request.compare a b = Ord.compare a.createdAt b.createdAt := by
  rw [RequestForPostAndComments.compare, h]

/-- Either direction orders the comments by their dates. -/
instance : Std.TransCmp request.compare where
  eq_swap {a b} := by
    cases h : request.dateSorting with
    | newestOnTop =>
      simp only [RequestForPostAndComments.compare_of_newestOnTop h]
      exact Std.OrientedCmp.eq_swap
    | oldestOnTop =>
      simp only [RequestForPostAndComments.compare_of_oldestOnTop h]
      exact Std.OrientedCmp.eq_swap
  isLE_trans {a b c} hab hbc := by
    cases h : request.dateSorting with
    | newestOnTop =>
      simp only [RequestForPostAndComments.compare_of_newestOnTop h] at hab hbc ⊢
      exact Std.TransCmp.isLE_trans hbc hab
    | oldestOnTop =>
      simp only [RequestForPostAndComments.compare_of_oldestOnTop h] at hab hbc ⊢
      exact Std.TransCmp.isLE_trans hab hbc

/-- Only comments of one date are equal in this comparison. -/
theorem RequestForPostAndComments.compare_eq_iff {a b : Comment} :
    request.compare a b = .eq ↔ a.createdAt = b.createdAt := by
  cases h : request.dateSorting with
  | newestOnTop =>
    rw [RequestForPostAndComments.compare_of_newestOnTop h]
    exact Std.LawfulEqCmp.compare_eq_iff_eq.trans eq_comm
  | oldestOnTop =>
    rw [RequestForPostAndComments.compare_of_oldestOnTop h]
    exact Std.LawfulEqCmp.compare_eq_iff_eq

end Compare

/-- `applySortingFrom`, which throws when it computes an item that does. -/
def applySortingFrom (dart : ListSort Comment) (request : RequestForPostAndComments)
    (comments : Iterable Comment) : Option (Iterable Comment) :=
  if request.sortByCreatedAt then
    comments.toList.map fun documents => (dart.sort request.compare documents).map some
  else some comments

/-- All items are there exactly when none of them throws. -/
theorem Iterable.toList_eq_some_iff {α : Type} {xs : Iterable α} {ys : List α} :
    xs.toList = some ys ↔ xs = ys.map some := by
  unfold Iterable.toList
  induction xs generalizing ys with
  | nil =>
    rw [List.mapM_nil, Option.pure_def, Option.some.injEq, List.nil_eq, List.nil_eq,
      List.map_eq_nil_iff]
  | cons x xs ih =>
    rw [List.mapM_cons]
    simp only [id, Option.bind_eq_bind, Option.pure_def, Option.bind_eq_some_iff, ih,
      Option.some.injEq]
    constructor
    · rintro ⟨y, rfl, zs, rfl, rfl⟩
      rfl
    · intro h
      obtain ⟨y, zs, rfl, hy, hzs⟩ := List.map_eq_cons_iff.mp h.symm
      exact ⟨y, hy.symm, zs, hzs.symm, rfl⟩

/-- Comments are emitted without a failure exactly when each can be read. -/
theorem applySortingFrom_eq_some_iff {dart : ListSort Comment}
    {request : RequestForPostAndComments} {comments : Iterable Comment} {shown : List Comment} :
    applySortingFrom dart request comments = some (shown.map some) ↔
      ∃ read : List Comment, comments = read.map some ∧
        shown = if request.sortByCreatedAt then dart.sort request.compare read else read := by
  have hinj : Function.Injective (List.map (some : Comment → Option Comment)) :=
    List.map_injective_iff.mpr (Option.some_injective Comment)
  unfold applySortingFrom
  cases request.sortByCreatedAt with
  | true =>
    simp only [ite_true, Option.map_eq_some_iff, Iterable.toList_eq_some_iff, hinj.eq_iff]
    exact exists_congr fun read => and_congr_right fun _ => eq_comm
  | false =>
    simp only [Bool.false_eq_true, ite_false, Option.some.injEq, exists_eq_right']

end TekkGram
