import TekkGram.Interaction.Async

/-!
# What a trace says about its calls

Three questions cover what is asked of the trace of a body with exceptions: did some
call of a kind raise, was an exception raised at all, and did some call return an
answer of a kind. Each distributes over concatenation, so it is computed along the rules
of the weakest precondition.
-/

namespace Interaction

variable {Call : Type} {Ans : Call → Type} {ε : Type}

/-- Some call of this kind raised an exception. -/
def Raised (P : Call → Prop) (tr : List (Event (Fallible ε Ans))) : Prop :=
  ∃ (c : Call) (e : ε), (⟨c, .error e⟩ : Event (Fallible ε Ans)) ∈ tr ∧ P c

/-- Some call raised this exception. -/
def Threw (e : ε) (tr : List (Event (Fallible ε Ans))) : Prop :=
  ∃ c : Call, (⟨c, .error e⟩ : Event (Fallible ε Ans)) ∈ tr

/-- Some call returned an answer of this kind. -/
def Returned (P : (c : Call) → Ans c → Prop) (tr : List (Event (Fallible ε Ans))) : Prop :=
  ∃ (c : Call) (a : Ans c), (⟨c, .ok a⟩ : Event (Fallible ε Ans)) ∈ tr ∧ P c a

section Raised

variable {P Q : Call → Prop} {tr tr' : List (Event (Fallible ε Ans))}

@[simp] theorem raised_nil : ¬ Raised P ([] : List (Event (Fallible ε Ans))) := by
  rintro ⟨c, e, h, -⟩
  cases h

@[simp] theorem raised_append : Raised P (tr ++ tr') ↔ Raised P tr ∨ Raised P tr' := by
  simp only [Raised, List.mem_append, or_and_right, exists_or]

@[simp] theorem raised_cons_ok {c : Call} {a : Ans c} :
    Raised P ((⟨c, .ok a⟩ : Event (Fallible ε Ans)) :: tr) ↔ Raised P tr := by
  constructor
  · rintro ⟨c', e, h, hp⟩
    rcases List.mem_cons.mp h with h | h
    · cases h
    · exact ⟨c', e, h, hp⟩
  · rintro ⟨c', e, h, hp⟩
    exact ⟨c', e, List.mem_cons_of_mem _ h, hp⟩

@[simp] theorem raised_cons_error {c : Call} {e : ε} :
    Raised P ((⟨c, .error e⟩ : Event (Fallible ε Ans)) :: tr) ↔ P c ∨ Raised P tr := by
  constructor
  · rintro ⟨c', e', h, hp⟩
    rcases List.mem_cons.mp h with h | h
    · cases h
      exact .inl hp
    · exact .inr ⟨c', e', h, hp⟩
  · rintro (hp | ⟨c', e', h, hp⟩)
    · exact ⟨c, e, List.mem_cons_self .., hp⟩
    · exact ⟨c', e', List.mem_cons_of_mem _ h, hp⟩

instance decidableRaised [DecidablePred P] :
    ∀ tr : List (Event (Fallible ε Ans)), Decidable (Raised P tr)
  | [] => .isFalse raised_nil
  | ⟨_, .ok _⟩ :: tr =>
    have := decidableRaised tr
    decidable_of_iff (Raised P tr) raised_cons_ok.symm
  | ⟨c, .error _⟩ :: tr =>
    have := decidableRaised tr
    decidable_of_iff (P c ∨ Raised P tr) raised_cons_error.symm

/-- Calls of one kind only raise what calls of that kind can raise. -/
theorem not_raised_of_calls (h : ∀ e ∈ tr, Q e.call) (hQ : ∀ c, Q c → ¬ P c) : ¬ Raised P tr := by
  rintro ⟨c, e, hmem, hp⟩
  exact hQ c (h _ hmem) hp

end Raised

section Threw

variable {e : ε} {tr tr' : List (Event (Fallible ε Ans))}

@[simp] theorem threw_nil : ¬ Threw e ([] : List (Event (Fallible ε Ans))) := by
  rintro ⟨c, h⟩
  cases h

@[simp] theorem threw_append : Threw e (tr ++ tr') ↔ Threw e tr ∨ Threw e tr' := by
  simp only [Threw, List.mem_append, exists_or]

@[simp] theorem threw_cons_ok {c : Call} {a : Ans c} :
    Threw e ((⟨c, .ok a⟩ : Event (Fallible ε Ans)) :: tr) ↔ Threw e tr := by
  constructor
  · rintro ⟨c', h⟩
    rcases List.mem_cons.mp h with h | h
    · cases h
    · exact ⟨c', h⟩
  · rintro ⟨c', h⟩
    exact ⟨c', List.mem_cons_of_mem _ h⟩

@[simp] theorem threw_cons_error {c : Call} {e' : ε} :
    Threw e ((⟨c, .error e'⟩ : Event (Fallible ε Ans)) :: tr) ↔ e' = e ∨ Threw e tr := by
  constructor
  · rintro ⟨c', h⟩
    rcases List.mem_cons.mp h with h | h
    · cases h
      exact .inl rfl
    · exact .inr ⟨c', h⟩
  · rintro (rfl | ⟨c', h⟩)
    · exact ⟨c, List.mem_cons_self ..⟩
    · exact ⟨c', List.mem_cons_of_mem _ h⟩

end Threw

section Returned

variable {P : (c : Call) → Ans c → Prop} {Q : Call → Prop}
  {tr tr' : List (Event (Fallible ε Ans))}

@[simp] theorem returned_nil : ¬ Returned P ([] : List (Event (Fallible ε Ans))) := by
  rintro ⟨c, a, h, -⟩
  cases h

@[simp] theorem returned_append :
    Returned P (tr ++ tr') ↔ Returned P tr ∨ Returned P tr' := by
  simp only [Returned, List.mem_append, or_and_right, exists_or]

@[simp] theorem returned_cons_ok {c : Call} {a : Ans c} :
    Returned P ((⟨c, .ok a⟩ : Event (Fallible ε Ans)) :: tr) ↔ P c a ∨ Returned P tr := by
  constructor
  · rintro ⟨c', a', h, hp⟩
    rcases List.mem_cons.mp h with h | h
    · cases h
      exact .inl hp
    · exact .inr ⟨c', a', h, hp⟩
  · rintro (hp | ⟨c', a', h, hp⟩)
    · exact ⟨c, a, List.mem_cons_self .., hp⟩
    · exact ⟨c', a', List.mem_cons_of_mem _ h, hp⟩

@[simp] theorem returned_cons_error {c : Call} {e : ε} :
    Returned P ((⟨c, .error e⟩ : Event (Fallible ε Ans)) :: tr) ↔ Returned P tr := by
  constructor
  · rintro ⟨c', a, h, hp⟩
    rcases List.mem_cons.mp h with h | h
    · cases h
    · exact ⟨c', a, h, hp⟩
  · rintro ⟨c', a, h, hp⟩
    exact ⟨c', a, List.mem_cons_of_mem _ h, hp⟩

instance decidableReturned [∀ c a, Decidable (P c a)] :
    ∀ tr : List (Event (Fallible ε Ans)), Decidable (Returned P tr)
  | [] => .isFalse returned_nil
  | ⟨c, .ok a⟩ :: tr =>
    have := decidableReturned tr
    decidable_of_iff (P c a ∨ Returned P tr) returned_cons_ok.symm
  | ⟨_, .error _⟩ :: tr =>
    have := decidableReturned tr
    decidable_of_iff (Returned P tr) returned_cons_error.symm

/-- Calls of one kind only return what calls of that kind can return. -/
theorem not_returned_of_calls (h : ∀ e ∈ tr, Q e.call) (hQ : ∀ c a, Q c → ¬ P c a) :
    ¬ Returned P tr := by
  rintro ⟨c, a, hmem, hp⟩
  exact hQ c a (h _ hmem) hp

theorem not_returned_of_call {c : Call} {r : Fallible ε Ans c} (h : ∀ a, ¬ P c a) :
    ¬ Returned P [⟨c, r⟩] := by
  cases r with
  | error e => simp
  | ok a => simpa using h a

end Returned

end Interaction
