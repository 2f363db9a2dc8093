import Mathlib.Data.List.Induction

/-!
# Past-time operators on histories

A history grows at its end. `Since A B` says that at some entry of the history, given what came
before it, `A` was true, and that every later entry meets `B`. `Throughout A` says that `A` was true
at every entry. Their laws for one more entry make them usable in invariants of a growing history.
-/

namespace Interaction

variable {α : Type} {A A' : List α → α → Prop} {B B' : α → Prop} {xs : List α} {x : α}

/-- `A` was true at some entry, and every entry after it meets `B`. -/
def Since (A : List α → α → Prop) (B : α → Prop) (xs : List α) : Prop :=
  ∃ (before : List α) (x : α) (after : List α), xs = before ++ x :: after ∧ A before x ∧
    ∀ y ∈ after, B y

theorem not_since_nil : ¬ Since A B [] := by
  rintro ⟨before, x, after, he, -⟩
  exact List.append_ne_nil_of_right_ne_nil before (List.cons_ne_nil x after) he.symm

/-- After one more entry, either `A` is true of it, or the history had the property and the entry
meets `B`. -/
theorem since_snoc : Since A B (xs ++ [x]) ↔ A xs x ∨ (Since A B xs ∧ B x) := by
  constructor
  · rintro ⟨before, y, after, he, hy, hafter⟩
    rcases List.eq_nil_or_concat after with rfl | ⟨after, z, rfl⟩
    · obtain ⟨rfl, hxy⟩ := List.append_inj' he rfl
      cases hxy
      exact .inl hy
    · have hsplit : xs ++ [x] = (before ++ y :: after) ++ [z] := by
        rw [he, List.append_assoc, List.cons_append, List.concat_eq_append]
      obtain ⟨rfl, hxz⟩ := List.append_inj' hsplit rfl
      cases hxz
      refine .inr ⟨⟨before, y, after, rfl, hy, fun u hu => ?_⟩, ?_⟩
      · exact hafter u (by simp [hu])
      · exact hafter x (by simp)
  · rintro (hx | ⟨⟨before, y, after, rfl, hy, hafter⟩, hx⟩)
    · exact ⟨xs, x, [], rfl, hx, by simp⟩
    · refine ⟨before, y, after ++ [x], by simp, hy, ?_⟩
      exact List.forall_mem_append.mpr ⟨hafter, List.forall_mem_singleton.mpr hx⟩

/-- Where something was true at some entry, it was true at a last one. -/
theorem since_of_mem {C : α → Prop} (h : ∃ y ∈ xs, C y) :
    Since (fun _ y => C y) (fun y => ¬ C y) xs := by
  induction xs using List.reverseRecOn with
  | nil => exact absurd h (by simp)
  | append_singleton xs x ih =>
    rw [since_snoc]
    by_cases hx : C x
    · exact .inl hx
    · obtain ⟨y, hy, hC⟩ := h
      rcases List.mem_append.mp hy with hy | hy
      · exact .inr ⟨ih ⟨y, hy, hC⟩, hx⟩
      · exact absurd (List.mem_singleton.mp hy ▸ hC) hx

/-- The last value that the entries give is that of one more entry, if it gives one. -/
theorem getLast?_filterMap_snoc {β : Type} (f : α → Option β) (xs : List α) (x : α) :
    ((xs ++ [x]).filterMap f).getLast? = (f x).or (xs.filterMap f).getLast? := by
  rw [List.filterMap_append, List.getLast?_append]
  cases h : f x <;> simp [h]

/-- An entry met `A`, and a later one met `B`. -/
def After (A B : α → Prop) (xs : List α) : Prop :=
  ∃ (before : List α) (x : α) (after : List α), xs = before ++ x :: after ∧ A x ∧ ∃ y ∈ after, B y

/-- After one more entry, either the history had the property, or some entry of it met `A` and the
new one meets `B`. -/
theorem after_snoc {A B : α → Prop} :
    After A B (xs ++ [x]) ↔ After A B xs ∨ ((∃ y ∈ xs, A y) ∧ B x) := by
  constructor
  · rintro ⟨before, y, after, he, hy, z, hz, hB⟩
    rcases List.eq_nil_or_concat after with rfl | ⟨after, u, rfl⟩
    · cases hz
    · have hsplit : xs ++ [x] = (before ++ y :: after) ++ [u] := by
        rw [he, List.append_assoc, List.cons_append, List.concat_eq_append]
      obtain ⟨rfl, hxu⟩ := List.append_inj' hsplit rfl
      cases hxu
      rw [List.concat_eq_append] at hz
      rcases List.mem_append.mp hz with hz | hz
      · exact .inl ⟨before, y, after, rfl, hy, z, hz, hB⟩
      · rw [List.mem_singleton.mp hz] at hB
        exact .inr ⟨⟨y, by simp, hy⟩, hB⟩
  · rintro (⟨before, y, after, rfl, hy, z, hz, hB⟩ | ⟨⟨y, hmem, hy⟩, hx⟩)
    · exact ⟨before, y, after ++ [x], by simp, hy, z, List.mem_append_left _ hz, hB⟩
    · obtain ⟨before, after, rfl⟩ := List.append_of_mem hmem
      exact ⟨before, y, after ++ [x], by simp, hy, x, by simp, hx⟩

/-- `A` was true at every entry, given what came before it. -/
def Throughout (A : List α → α → Prop) (xs : List α) : Prop :=
  ∀ (before : List α) (x : α) (after : List α), xs = before ++ x :: after → A before x

@[simp] theorem throughout_nil : Throughout A [] := by
  intro before x after he
  exact absurd he.symm (List.append_ne_nil_of_right_ne_nil before (List.cons_ne_nil x after))

/-- The first entry has nothing before it, and the others have it before them. -/
@[simp] theorem throughout_cons :
    Throughout A (x :: xs) ↔ A [] x ∧ Throughout (fun before => A (x :: before)) xs := by
  constructor
  · intro h
    refine ⟨h [] x xs rfl, fun before y after he => h (x :: before) y after ?_⟩
    rw [he, List.cons_append]
  · rintro ⟨hx, hxs⟩ before y after he
    cases before with
    | nil =>
      obtain ⟨rfl, -⟩ := List.cons.inj he
      exact hx
    | cons z before =>
      obtain ⟨rfl, hrest⟩ := List.cons.inj he
      exact hxs before y after hrest

theorem throughout_append {ys : List α} : Throughout A (xs ++ ys) ↔
    Throughout A xs ∧ Throughout (fun before => A (xs ++ before)) ys := by
  induction xs generalizing A with
  | nil => simp
  | cons x xs ih => rw [List.cons_append, throughout_cons, throughout_cons, ih, and_assoc]; rfl

theorem Throughout.mono (h : Throughout A xs) (himp : ∀ before x, A before x → A' before x) :
    Throughout A' xs := fun before x after he => himp before x (h before x after he)

/-- What is true of every entry alone is true throughout. -/
theorem Throughout.of_forall (h : ∀ x ∈ xs, ∀ before, A before x) : Throughout A xs := by
  rintro before x after rfl
  exact h x (List.mem_append_right _ (List.mem_cons_self ..)) before

theorem Throughout.of_append {ys : List α} (h : Throughout A (xs ++ ys)) : Throughout A xs :=
  (throughout_append.mp h).1

/-- What stays true with more before it is true throughout two histories that it is true
throughout. -/
theorem Throughout.append {ys : List α} (h : Throughout A xs) (h' : Throughout A ys)
    (hprepend : ∀ before x, A before x → A (xs ++ before) x) : Throughout A (xs ++ ys) :=
  throughout_append.mpr ⟨h, h'.mono hprepend⟩

end Interaction
