import Mathlib.Data.List.Sort
import Mathlib.Order.Lattice

/-!
# The first elements of a descending list

A list of elements with different keys has one descending arrangement. Its first elements are
those of a part of the list exactly when every key of this part is larger than the other keys.
-/

namespace TekkGram.Arrangement

variable {α β : Type} [LinearOrder β] {key : α → β} {xs ys l r : List α}

/-- The elements come by decreasing key, and no key occurs twice. -/
def Descending (key : α → β) (xs : List α) : Prop := xs.Pairwise fun a b => key b < key a

/-- Every key of the first list is larger than every key of the second. -/
def Above (key : α → β) (l r : List α) : Prop := ∀ a ∈ l, ∀ b ∈ r, key b < key a

instance (key : α → β) (l r : List α) : Decidable (Above key l r) :=
  inferInstanceAs (Decidable (∀ a ∈ l, ∀ b ∈ r, key b < key a))

instance (key : α → β) (xs : List α) : Decidable (Descending key xs) :=
  inferInstanceAs (Decidable (xs.Pairwise _))

theorem Above.perm {l' r' : List α} (h : Above key l r) (hl : l.Perm l') (hr : r.Perm r') :
    Above key l' r' := fun a ha b hb => h a (hl.mem_iff.mpr ha) b (hr.mem_iff.mpr hb)

theorem Descending.take (h : Descending key xs) (n : Nat) : Descending key (xs.take n) :=
  List.Pairwise.sublist (List.take_sublist n xs) h

/-- Only the keys matter. -/
theorem descending_iff_of_map_eq (h : xs.map key = ys.map key) :
    Descending key xs ↔ Descending key ys := by
  unfold Descending
  rw [← List.pairwise_map (f := key) (R := fun a b => b < a), h, List.pairwise_map]

theorem descending_append :
    Descending key (l ++ r) ↔ Descending key l ∧ Descending key r ∧ Above key l r :=
  List.pairwise_append

/-- Two descending arrangements of the same elements are one. -/
theorem Descending.eq_of_perm (hx : Descending key xs) (hy : Descending key ys)
    (h : xs.Perm ys) : xs = ys :=
  h.eq_of_pairwise (fun _ _ _ _ hab hba => absurd hab (lt_asymm hba)) hx hy

/-- The elements by decreasing key. -/
def arrange (key : α → β) (xs : List α) : List α := xs.insertionSort fun a b => key b ≤ key a

theorem arrange_perm (key : α → β) (xs : List α) : (arrange key xs).Perm xs :=
  List.perm_insertionSort _ xs

/-- Elements with different keys are arranged strictly. -/
theorem descending_arrange (h : (xs.map key).Nodup) : Descending key (arrange key xs) := by
  have htotal : Std.Total fun a b : α => key b ≤ key a := ⟨fun a b => le_total (key b) (key a)⟩
  have htrans : IsTrans α fun a b => key b ≤ key a := ⟨fun _ _ _ hab hbc => hbc.trans hab⟩
  have hle := List.pairwise_insertionSort (fun a b : α => key b ≤ key a) xs
  have hne : ((arrange key xs).map key).Nodup := ((arrange_perm key xs).map key).nodup_iff.mpr h
  exact hle.imp₂ (fun a b hab hne => lt_of_le_of_ne hab (Ne.symm hne)) (List.pairwise_map.mp hne)

section Take

variable (hy : Descending key ys) (h : ys.Perm (l ++ r))

include hy h

/-- A part of the list whose keys are the first ones is above the rest. -/
theorem above_of_take_perm (htake : ((ys.take l.length).map key).Perm (l.map key)) :
    Above key l r := by
  have hsplit : ((ys.take l.length).map key ++ (ys.drop l.length).map key).Perm
      (l.map key ++ r.map key) := by
    rw [← List.map_append, ← List.map_append, List.take_append_drop]
    exact h.map key
  have hdrop : ((ys.drop l.length).map key).Perm (r.map key) :=
    (List.perm_append_left_iff _).mp ((htake.symm.append_right _).trans hsplit)
  rw [← List.take_append_drop l.length ys, descending_append] at hy
  intro a ha b hb
  obtain ⟨a', ha', hkey⟩ := List.mem_map.mp (htake.mem_iff.mpr (List.mem_map_of_mem ha))
  obtain ⟨b', hb', hkey'⟩ := List.mem_map.mp (hdrop.mem_iff.mpr (List.mem_map_of_mem hb))
  rw [← hkey, ← hkey']
  exact hy.2.2 a' ha' b' hb'

/-- A part of the list that is above the rest holds the first elements. -/
theorem take_perm_of_above (habove : Above key l r) : (ys.take l.length).Perm l := by
  have hnodup : ((l ++ r).map key).Nodup :=
    (h.map key).nodup_iff.mp (List.pairwise_map.mpr (hy.imp fun hba => hba.ne'))
  rw [List.map_append, List.nodup_append] at hnodup
  -- the arrangement of the part, followed by that of the rest, is descending too
  have hparts : Descending key (arrange key l ++ arrange key r) :=
    descending_append.mpr ⟨descending_arrange hnodup.1, descending_arrange hnodup.2.1,
      habove.perm (arrange_perm key l).symm (arrange_perm key r).symm⟩
  have heq : ys = arrange key l ++ arrange key r :=
    hy.eq_of_perm hparts (h.trans ((arrange_perm key l).append (arrange_perm key r)).symm)
  have hlength : (arrange key l).length = l.length := (arrange_perm key l).length_eq
  rw [heq, ← hlength, List.take_left']
  · exact arrange_perm key l
  · rfl

end Take

end TekkGram.Arrangement
