import Mathlib.Data.List.Basic

/-!
# Lazy sequences

The items of a lazy sequence are computed on access, and their computation may throw. A sequence
that maps a list knows its length without computing an item, and one that filters another must
compute the items of that one. Where no item throws, both are the list of their items.
-/

namespace Lazy

variable {α : Type}

/-- A sequence whose items are computed on access, where `none` is an item whose computation
throws: the items of a list, or those of another sequence that pass a test. -/
inductive Sequence (α : Type) where
  | mapped (items : List (Option α))
  | filtered (source : Sequence α) (test : α → Bool)

namespace Sequence

/-- The items in the order in which an iteration computes them; it ends at the first that throws,
also if this one would not pass the test. -/
def items : Sequence α → List (Option α)
  | mapped items => items
  | filtered source test => source.items.filter fun item => item.all test

/-- Computes every item. -/
def toList (xs : Sequence α) : Option (List α) := xs.items.mapM id

/-- Computes the items up to the first that passes the test, or none for a mapped list. -/
def isEmpty : Sequence α → Option Bool
  | mapped items => some items.isEmpty
  | filtered source test =>
    match (filtered source test).items with
    | [] => some true
    | item :: _ => item.map fun _ => false

/-- Computes every item, or none for a mapped list. -/
def length : Sequence α → Option Nat
  | mapped items => some items.length
  | filtered source test => (filtered source test).toList.map List.length

/-- Computes the item at an index, and those before it unless a list is mapped. -/
def elementAt (xs : Sequence α) (i : Nat) : Option α :=
  match xs with
  | mapped items => items[i]?.join
  | filtered source test => do
    let before ← ((filtered source test).items.take (i + 1)).mapM id
    before[i]?

/-- The items as a list builder shows them, which asks for the length and then for one at a time. -/
def builtItems (xs : Sequence α) : Option (List (Option α)) :=
  xs.length.map fun n => (List.range n).map xs.elementAt

/-- All items are computed exactly when none of them throws. -/
theorem mapM_id_eq_some_iff {xs : List (Option α)} {ys : List α} :
    xs.mapM id = some ys ↔ xs = ys.map some := by
  induction xs generalizing ys with
  | nil =>
    rw [List.mapM_nil, Option.pure_def, Option.some.injEq, List.nil_eq, List.nil_eq,
      List.map_eq_nil_iff]
  | cons x xs ih =>
    cases ys with
    | nil => simp [List.mapM_cons, Option.bind_eq_some_iff]
    | cons y ys => simp [List.mapM_cons, Option.bind_eq_some_iff, ih]

/-- An item that throws makes the whole list throw. -/
theorem mapM_id_eq_none_iff {xs : List (Option α)} : xs.mapM id = none ↔ none ∈ xs := by
  induction xs with
  | nil => simp
  | cons x xs ih =>
    cases x with
    | none => simp [List.mapM_cons]
    | some a =>
      have hmem : none ∈ some a :: xs ↔ none ∈ xs := by simp
      rw [hmem, ← ih, List.mapM_cons]
      cases xs.mapM id <;> simp

/-- Items none of which throws are those of a list. -/
theorem exists_map_some {xs : List (Option α)} (h : none ∉ xs) :
    ∃ ys : List α, xs = ys.map some := by
  induction xs with
  | nil => exact ⟨[], rfl⟩
  | cons x xs ih =>
    obtain ⟨hx, hxs⟩ := List.ne_and_not_mem_of_not_mem_cons h
    obtain ⟨y, rfl⟩ := Option.ne_none_iff_exists'.mp hx.symm
    obtain ⟨ys, rfl⟩ := ih hxs
    exact ⟨y :: ys, rfl⟩

/-- What items have in common with what they are computed from. -/
theorem map_eq_map {β γ : Type} {f : β → Option α} {xs : List β} {ys : List α} {g : α → γ}
    {k : β → γ} (h : xs.map f = ys.map some) (hgk : ∀ x y, x ∈ xs → f x = some y → g y = k x) :
    ys.map g = xs.map k := by
  induction xs generalizing ys with
  | nil =>
    obtain rfl : ys = [] := List.map_eq_nil_iff.mp h.symm
    rfl
  | cons x xs ih =>
    obtain ⟨y, rest, rfl, hx, hxs⟩ := List.map_eq_cons_iff.mp h.symm
    rw [List.map_cons, List.map_cons, hgk x y (List.mem_cons_self ..) hx.symm,
      ih hxs.symm fun x' y' hx' => hgk x' y' (List.mem_cons_of_mem _ hx')]

theorem toList_eq_some_iff {xs : Sequence α} {ys : List α} :
    xs.toList = some ys ↔ xs.items = ys.map some := mapM_id_eq_some_iff

theorem toList_eq_none_iff {xs : Sequence α} : xs.toList = none ↔ none ∈ xs.items :=
  mapM_id_eq_none_iff

/-- The items of a filtered sequence are those of its source that pass the test; it throws exactly
when the source does. -/
@[simp] theorem toList_filtered (source : Sequence α) (test : α → Bool) :
    (filtered source test).toList = source.toList.map (List.filter test) := by
  cases h : source.toList with
  | none =>
    refine toList_eq_none_iff.mpr ?_
    exact List.mem_filter.mpr ⟨toList_eq_none_iff.mp h, rfl⟩
  | some ys =>
    refine toList_eq_some_iff.mpr ?_
    rw [items, toList_eq_some_iff.mp h, List.filter_map]
    rfl

@[simp] theorem length_mapped (items : List (Option α)) :
    (mapped items).length = some items.length := rfl

theorem length_filtered (source : Sequence α) (test : α → Bool) :
    (filtered source test).length = source.toList.map fun ys => (ys.filter test).length := by
  rw [length, toList_filtered, Option.map_map]
  rfl

section Computed

variable {xs : Sequence α} {ys : List α}

/-- A sequence without items that throw is empty if its list is. -/
theorem isEmpty_of_toList (h : xs.toList = some ys) : xs.isEmpty = some ys.isEmpty := by
  have hitems := toList_eq_some_iff.mp h
  cases xs with
  | mapped items =>
    obtain rfl : items = ys.map some := hitems
    simp [isEmpty]
  | filtered source test =>
    rw [isEmpty, hitems]
    cases ys <;> rfl

theorem length_of_toList (h : xs.toList = some ys) : xs.length = some ys.length := by
  cases xs with
  | mapped items =>
    obtain rfl : items = ys.map some := toList_eq_some_iff.mp h
    simp
  | filtered source test => rw [length, h, Option.map_some]

theorem elementAt_of_toList (h : xs.toList = some ys) (i : Nat) : xs.elementAt i = ys[i]? := by
  have hitems := toList_eq_some_iff.mp h
  cases xs with
  | mapped items =>
    obtain rfl : items = ys.map some := hitems
    rw [elementAt, List.getElem?_map]
    cases ys[i]? <;> rfl
  | filtered source test =>
    have hbefore : ((filtered source test).items.take (i + 1)).mapM id =
        some (ys.take (i + 1)) := by
      rw [hitems, ← List.map_take]
      exact mapM_id_eq_some_iff.mpr rfl
    rw [elementAt, hbefore]
    exact List.getElem?_take_of_lt (Nat.lt_succ_self i)

/-- Without items that throw a list builder shows the list. -/
theorem builtItems_of_toList (h : xs.toList = some ys) : xs.builtItems = some (ys.map some) := by
  rw [builtItems, length_of_toList h, Option.map_some, Option.some.injEq]
  refine List.ext_getElem (by simp) fun i hi hi' => ?_
  rw [List.length_map] at hi'
  rw [List.getElem_map, List.getElem_map, List.getElem_range, elementAt_of_toList h,
    List.getElem?_eq_getElem hi']

end Computed

/-- A list builder shows the items of a mapped list one by one, whether they throw or not. -/
@[simp] theorem builtItems_mapped (items : List (Option α)) :
    (mapped items).builtItems = some items := by
  rw [builtItems, length_mapped, Option.map_some, Option.some.injEq]
  refine List.ext_getElem (by simp) fun i hi hi' => ?_
  rw [List.getElem_map, List.getElem_range, elementAt, List.getElem?_eq_getElem hi',
    Option.join_some]

end Sequence

end Lazy
