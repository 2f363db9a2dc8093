import TekkGram.Interaction.Async

/-!
# Bodies that change nothing unless they succeed

A body may observe and change some part of the state of its environment. It is atomic when it leaves
this part as it was unless it returns a value that means success. A body of harmless calls is
atomic, and stays so with one write as its last call.
-/

namespace Interaction

namespace Async

variable {Call : Type} {Ans : Call → Type} {ε σ τ α β W O : Type}

/-- Unless it returns a value of the kind `S`, a body leaves what is observed of the state as it
was. -/
def Atomic (env : Environment W (Fallible ε Ans)) (observe : W → O) (S : α → Prop)
    (m : Async Ans ε σ α) : Prop :=
  ∀ s w, m.wp env (fun _ out _ w' => (∃ a, out = .ok a ∧ S a) ∨ observe w' = observe w) s w

section Atomic

variable {env : Environment W (Fallible ε Ans)} {observe : W → O} {S : α → Prop}
  {K : Call → Prop}

/-- Harmless calls change nothing. -/
theorem atomic_of_calls (hK : ∀ w c r w', K c → env w c r = some w' → observe w' = observe w)
    {m : Async Ans ε σ α} (hm : m.Calls K) : m.Atomic env observe S := by
  intro s w
  refine wp_mono (wp_invariant (I := fun w' => observe w' = observe w) hm ?_ s rfl)
    fun _ _ _ _ h => .inr h
  intro w₁ c r w₂ hc hstep hsame
  exact (hK w₁ c r w₂ hc hstep).trans hsame

/-- Harmless calls before an atomic body. -/
theorem atomic_bind (hK : ∀ w c r w', K c → env w c r = some w' → observe w' = observe w)
    {S : β → Prop} {m : Async Ans ε σ α} {f : α → Async Ans ε σ β} (hm : m.Calls K)
    (hf : ∀ a, (f a).Atomic env observe S) : (m >>= f).Atomic env observe S := by
  intro s w
  have hsame := atomic_of_calls (S := fun _ => False) hK hm s w
  refine wp_bind.mpr (wp_mono hsame ?_)
  rintro tr out s' w' (⟨a, -, hfalse⟩ | hkept)
  · exact hfalse.elim
  · cases out with
    | error e => exact .inr hkept
    | ok a =>
      refine wp_mono (hf a s' w') ?_
      rintro tr' out s'' w'' (hsuccess | hkept')
      · exact .inl hsuccess
      · exact .inr (hkept'.trans hkept)

/-- One write, which has no effect when it fails, as the last call before the success. -/
theorem atomic_write {c : Call} {a : α} (hS : S a)
    (hfail : ∀ w e w', env w c (.error e) = some w' → observe w' = observe w) :
    ((call c : Async Ans ε σ (Ans c)) >>= fun _ => Pure.pure a).Atomic env observe S := by
  intro s w
  rw [wp_bind, wp_call]
  intro r w' hstep
  cases r with
  | error e => exact .inr (hfail w e w' hstep)
  | ok b =>
    rw [ends_ok, wp_pure]
    exact .inl ⟨a, rfl, hS⟩

/-- A handler that returns at once. -/
theorem atomic_tryCatch {m : Async Ans ε σ α} {handler : ε → α} (hm : m.Atomic env observe S) :
    (tryCatch m fun e => Pure.pure (handler e)).Atomic env observe S := by
  refine fun s w => wp_tryCatch.mpr (wp_mono (hm s w) ?_)
  intro tr out s' w' hout
  cases out with
  | ok a => exact hout
  | error e =>
    rw [ends_error, wp_pure]
    refine .inr (hout.resolve_left ?_)
    rintro ⟨a, h, -⟩
    cases h

/-- A finalizer that never raises. -/
theorem atomic_tryFinally
    (hK : ∀ w c r w', K c → env w c r = some w' → observe w' = observe w) {m : Async Ans ε σ α}
    {finalizer : Async Ans ε σ Unit} (hm : m.Atomic env observe S) (hcalls : finalizer.Calls K)
    (hreturns : ∀ s w, finalizer.wp env (fun _ out _ _ => out = .ok ()) s w) :
    (tryFinally m finalizer).Atomic env observe S := by
  refine fun s w => wp_tryFinally.mpr (wp_mono (hm s w) ?_)
  intro tr out s' w' hout
  refine wp_mono (wp_and (atomic_of_calls (S := fun _ => False) hK hcalls s' w')
    (hreturns s' w')) ?_
  rintro tr' out' s'' w'' ⟨⟨-, -, hfalse⟩ | hkept, rfl⟩
  · exact hfalse.elim
  · exact hout.imp_right hkept.trans

/-- Locals are not observed. -/
theorem atomic_withLocals {init : τ} {m : Async Ans ε τ α} (hm : m.Atomic env observe S) :
    (withLocals init m : Async Ans ε σ α).Atomic env observe S :=
  fun _ w => wp_withLocals.mpr (hm init w)

end Atomic

end Async

end Interaction
