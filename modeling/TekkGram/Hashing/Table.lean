import Mathlib.Data.List.Basic

/-!
# Tables by hash code

A table finds a key among the entries whose keys have the same hash code, and compares only these
with it. It finds every equal key if equal keys have equal hash codes, and may miss one otherwise.
-/

namespace Hashing

variable {Key Item : Type}

/-- The entry that a table finds for a key. -/
def lookup (equals : Key → Key → Bool) (hashCode : Key → Int) (table : List (Key × Item))
    (key : Key) : Option (Key × Item) :=
  table.find? fun entry => hashCode entry.1 = hashCode key && equals entry.1 key

section Lookup

variable {equals : Key → Key → Bool} {hashCode : Key → Int} {table : List (Key × Item)} {key : Key}

/-- If keys that are equal to this one have its hash code, a table finds it exactly if it has an
equal one. -/
theorem isSome_lookup_iff
    (hagree : ∀ entry ∈ table, equals entry.1 key = true → hashCode entry.1 = hashCode key) :
    (lookup equals hashCode table key).isSome = true ↔
      ∃ entry ∈ table, equals entry.1 key = true := by
  rw [lookup, List.find?_isSome]
  refine exists_congr fun entry => and_congr_right fun hentry => ?_
  rw [Bool.and_eq_true, decide_eq_true_eq]
  exact ⟨fun h => h.2, fun h => ⟨hagree entry hentry h, h⟩⟩

/-- A key with another hash code is not found, though it may be equal. -/
theorem lookup_eq_none (h : ∀ entry ∈ table, hashCode entry.1 ≠ hashCode key) :
    lookup equals hashCode table key = none := by
  refine List.find?_eq_none.mpr fun entry hentry => ?_
  rw [decide_eq_false (h entry hentry), Bool.false_and]
  exact Bool.false_ne_true

end Lookup

end Hashing
