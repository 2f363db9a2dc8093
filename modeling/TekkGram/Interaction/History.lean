import TekkGram.Interaction.Closing
import TekkGram.Interaction.Placed

/-!
# What an interleaving has passed

The moves of an interleaving decide its states. A value that is read off the states under a key is
the same throughout if every step keeps it, or gives it to a key that has never had a value.
-/

namespace Interaction

variable {Call : Type} {Reply : Call → Type} {β W K V : Type}

theorem Pool.Step.unique {env : Environment W Reply} {P P₁ P₂ : Pool W Reply β} {m : Move Reply}
    (h₁ : Pool.Step env P m P₁) (h₂ : Pool.Step env P m P₂) : P₁ = P₂ := by
  cases h₁ with
  | mk hthread haccept =>
    cases h₂ with
    | mk hthread' haccept' =>
      cases hthread.symm.trans hthread'
      cases haccept.symm.trans haccept'
      rfl

section Steps

variable {env : Environment W Reply}
  {guard : List (Move Reply) → Pool W Reply β → Move Reply → Prop}
  {P₀ P P' : Pool W Reply β} {moves past : List (Move Reply)} {m : Move Reply} {w : W}

/-- The last move of an interleaving. -/
theorem Pool.Steps.of_snoc (h : Pool.Steps env guard P₀ (moves ++ [m]) P) :
    ∃ P₁, Pool.Steps env guard P₀ moves P₁ ∧ Pool.Step env P₁ m P := by
  generalize hmoves : moves ++ [m] = moves' at h
  cases h with
  | nil => exact absurd hmoves (by simp)
  | snoc hpast hstep _ =>
    obtain ⟨rfl, hm⟩ := List.append_inj' hmoves rfl
    cases hm
    exact ⟨_, hpast, hstep⟩

/-- The moves decide the pool. -/
theorem Pool.Steps.unique (h : Pool.Steps env guard P₀ moves P)
    (h' : Pool.Steps env guard P₀ moves P') : P = P' := by
  induction h generalizing P' with
  | nil =>
    generalize hmoves : ([] : List (Move Reply)) = moves at h'
    cases h' with
    | nil => rfl
    | snoc => exact absurd hmoves (by simp)
  | @snoc moves P Q m _ hstep _ ih =>
    obtain ⟨P₁, hpast', hstep'⟩ := h'.of_snoc
    exact (ih hpast' ▸ hstep).unique hstep'

/-- An interleaving has begun with every prefix of its moves. -/
theorem Pool.Steps.of_prefix (h : Pool.Steps env guard P₀ moves P) (hpast : past <+: moves) :
    ∃ P₁, Pool.Steps env guard P₀ past P₁ := by
  induction h with
  | nil => exact ⟨P₀, List.prefix_nil.mp hpast ▸ .nil⟩
  | snoc hmoves hstep hguard ih =>
    rcases List.prefix_concat_iff.mp hpast with rfl | hpast
    · exact ⟨_, .snoc hmoves hstep hguard⟩
    · exact ih hpast

/-- The interleaving has passed this state. -/
def Pool.Passed (env : Environment W Reply)
    (guard : List (Move Reply) → Pool W Reply β → Move Reply → Prop) (P₀ : Pool W Reply β)
    (moves : List (Move Reply)) (w : W) : Prop :=
  ∃ past P, past <+: moves ∧ Pool.Steps env guard P₀ past P ∧ P.state = w

theorem Pool.Steps.passed (h : Pool.Steps env guard P₀ moves P) :
    Pool.Passed env guard P₀ moves P.state := ⟨moves, P, List.prefix_refl _, h, rfl⟩

theorem Pool.Passed.mono (h : Pool.Passed env guard P₀ past w) (hpast : past <+: moves) :
    Pool.Passed env guard P₀ moves w := by
  obtain ⟨earlier, P, hearlier, hsteps, hw⟩ := h
  exact ⟨earlier, P, hearlier.trans hpast, hsteps, hw⟩

/-- One more move passes one more state. -/
theorem Pool.Steps.passed_snoc (h : Pool.Steps env guard P₀ (moves ++ [m]) P) :
    Pool.Passed env guard P₀ (moves ++ [m]) w ↔
      Pool.Passed env guard P₀ moves w ∨ w = P.state := by
  constructor
  · rintro ⟨past, P₁, hpast, hsteps, rfl⟩
    rcases List.prefix_concat_iff.mp hpast with rfl | hpast
    · exact .inr (congrArg Pool.state (hsteps.unique h))
    · exact .inl ⟨past, P₁, hpast, hsteps, rfl⟩
  · rintro (hpassed | rfl)
    · exact hpassed.mono (List.prefix_append _ _)
    · exact h.passed

/-- The passed states have the same values under the same keys, where they have one. -/
def Pool.Agrees (env : Environment W Reply)
    (guard : List (Move Reply) → Pool W Reply β → Move Reply → Prop) (P₀ : Pool W Reply β)
    (moves : List (Move Reply)) (attr : W → K → Option V) : Prop :=
  ∀ w w', Pool.Passed env guard P₀ moves w → Pool.Passed env guard P₀ moves w' →
    ∀ k v v', attr w k = some v → attr w' k = some v' → v = v'

theorem Pool.Agrees.mono {attr : W → K → Option V}
    (h : Pool.Agrees env guard P₀ moves attr) (hpast : past <+: moves) :
    Pool.Agrees env guard P₀ past attr :=
  fun w w' hw hw' => h w w' (hw.mono hpast) (hw'.mono hpast)

/-- Values that every step keeps, or gives to keys that have never had one, are the same
throughout. -/
theorem Pool.Steps.agrees (h : Pool.Steps env guard P₀ moves P) {attr : W → K → Option V}
    (hnext : ∀ past m P₁ P₂, past ++ [m] <+: moves → Pool.Steps env guard P₀ past P₁ →
      Pool.Step env P₁ m P₂ → Pool.Agrees env guard P₀ past attr →
        ∀ k v, attr P₂.state k = some v → attr P₁.state k = some v ∨
          ∀ w, Pool.Passed env guard P₀ past w → attr w k = none) :
    Pool.Agrees env guard P₀ moves attr := by
  induction h with
  | nil =>
    rintro w w' ⟨past, P, hpast, hsteps, rfl⟩ ⟨past', P', hpast', hsteps', rfl⟩ k v v' hv hv'
    obtain rfl := List.prefix_nil.mp hpast
    obtain rfl := List.prefix_nil.mp hpast'
    obtain rfl := hsteps.unique hsteps'
    exact Option.some.inj (hv.symm.trans hv')
  | @snoc moves P Q m hmoves hstep hguard ih =>
    have hagrees := ih fun past m P₁ P₂ hbegins =>
      hnext past m P₁ P₂ (hbegins.trans (List.prefix_append _ _))
    have hold : ∀ w, Pool.Passed env guard P₀ moves w → ∀ k v v', attr w k = some v →
        attr Q.state k = some v' → v = v' := by
      intro w hw k v v' hv hv'
      rcases hnext moves m P Q (List.prefix_refl _) hmoves hstep hagrees k v' hv' with hkept | hnew
      · exact hagrees w P.state hw hmoves.passed k v v' hv hkept
      · cases (hnew w hw).symm.trans hv
    have hall : Pool.Steps env guard P₀ (moves ++ [m]) Q := .snoc hmoves hstep hguard
    intro w w' hw hw' k v v' hv hv'
    rcases hall.passed_snoc.mp hw with hw | rfl <;> rcases hall.passed_snoc.mp hw' with hw' | rfl
    · exact hagrees w w' hw hw' k v v' hv hv'
    · exact hold w hw k v v' hv hv'
    · exact (hold w' hw' k v' v hv' hv).symm
    · exact Option.some.inj (hv.symm.trans hv')

end Steps

section Replies

variable {α ι : Type} {R : Event Reply → Prop} {C : Call → Prop}

/-- While the replies are of the kind `R`, every call is of the kind `C`. -/
abbrev Program.CallsOn (R : Event Reply → Prop) (C : Call → Prop) (p : Program Reply β) : Prop :=
  p.Closes R C (fun _ => False) fun _ => False

/-- Two conditions hold of the same calls. -/
theorem Program.Calls.and {C' : Call → Prop} {p : Program Reply β} (h : p.Calls C)
    (h' : p.Calls C') : p.Calls fun c => C c ∧ C' c := by
  induction p with
  | done b => trivial
  | call c next ih => exact ⟨⟨h.1, h'.1⟩, fun r => ih r (h.2 r) (h'.2 r)⟩

theorem Program.CallsOn.mono {C' : Call → Prop} {p : Program Reply β} (h : p.CallsOn R C)
    (hC : ∀ c, C c → C' c) : p.CallsOn R C' := by
  induction p with
  | done b => trivial
  | call c next ih =>
    exact ⟨.inl (hC c (h.1.resolve_right fun hlast => hlast.1)), fun r hr => ih r (h.2 r hr)⟩

/-- A program at its place makes the same calls there. -/
theorem Program.CallsOn.placed {p : Program Reply β} (h : p.CallsOn R C) (place : ι) :
    (p.placed place).CallsOn (fun e => R e.local) fun c => c.1 = place ∧ C c.2 := by
  induction p with
  | done b => trivial
  | call c next ih =>
    exact ⟨.inl ⟨rfl, h.1.resolve_right fun hlast => hlast.1⟩, fun r hr => ih r (h.2 r hr)⟩

/-- Every thread keeps making calls of its own kind while the replies are of the kind. -/
theorem Pool.Steps.callsOn {env : Environment W Reply}
    {guard : List (Move Reply) → Pool W Reply β → Move Reply → Prop} {P₀ P : Pool W Reply β}
    {moves : List (Move Reply)} (h : Pool.Steps env guard P₀ moves P) {C : Nat → Call → Prop}
    (hR : ∀ m ∈ moves, R m.event)
    (hcalls : ∀ (i : Nat) (p : Program Reply β), P₀.threads[i]? = some p → p.CallsOn R (C i)) :
    ∀ (i : Nat) (p : Program Reply β), P.threads[i]? = some p → p.CallsOn R (C i) := by
  induction h with
  | nil => exact hcalls
  | snoc _ hs _ ih =>
    have hpast := ih fun m hm => hR m (List.mem_append_left _ hm)
    cases hs with
    | @mk w w' threads j c next r hthread haccept =>
      intro i p hp
      rcases getElem?_set_eq_some hp with ⟨rfl, rfl⟩ | ⟨-, hp⟩
      · exact (hpast j _ hthread).2 r (hR ⟨j, c, r⟩ (by simp))
      · exact hpast i p hp

/-- A move after an interleaving is a call of the kind of its program, at the place of it. -/
theorem Pool.Steps.next_call {env : Environment W (AtPlace ι Reply)}
    {guard : List (Move (AtPlace ι Reply)) → Pool W (AtPlace ι Reply) β →
      Move (AtPlace ι Reply) → Prop} {w : W} {programs : List (ι × Program Reply β)}
    {P P' : Pool W (AtPlace ι Reply) β} {moves : List (Move (AtPlace ι Reply))}
    {m : Move (AtPlace ι Reply)} {C : Nat → Call → Prop}
    (hR : ∀ m ∈ moves, R m.event.local)
    (hcalls : ∀ (i : Nat) (p : ι × Program Reply β), programs[i]? = some p → p.2.CallsOn R (C i))
    (h : Pool.Steps env guard (.placed w programs) moves P) (hstep : Pool.Step env P m P') :
    ∃ p, programs[m.thread]? = some p ∧ m.event.call.1 = p.1 ∧ C m.thread m.event.call.2 := by
  have hthreads := h.callsOn (R := fun e => R e.local)
    (C := fun i c => ∃ p, programs[i]? = some p ∧ c.1 = p.1 ∧ C i c.2) hR ?_
  · cases hstep with
    | mk hthread haccept =>
      exact (hthreads _ _ hthread).1.resolve_right fun hlast => hlast.1
  · intro i q hq
    rw [Pool.placed, List.getElem?_map, Option.map_eq_some_iff] at hq
    obtain ⟨p, hp, rfl⟩ := hq
    exact ((hcalls i p hp).placed p.1).mono fun c hc => ⟨p, hp, hc⟩

end Replies

namespace Async

variable {Ans : Call → Type} {ε σ α : Type} {R : Event (Fallible ε Ans) → Prop}
  {K L : Call → Prop}

theorem Calls.and {m : Async Ans ε σ α} (h : m.Calls K) (h' : m.Calls L) :
    m.Calls fun c => K c ∧ L c := fun s => (h s).and (h' s)

theorem keeps_tryFinally {m : Async Ans ε σ α} {finalizer : Async Ans ε σ Unit}
    (hm : m.Keeps R K L) (hfinalizer : finalizer.Keeps R K L) :
    (tryFinally m finalizer).Keeps R K L := by
  intro s
  refine (hm s).bind (fun _ h => h.elim) ?_
  rintro ⟨out, s'⟩
  refine (hfinalizer s').bind (fun _ h => h.elim) ?_
  rintro ⟨out', s''⟩
  cases out' <;> trivial

end Async

end Interaction
