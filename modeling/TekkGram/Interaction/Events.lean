import Mathlib.Data.List.Basic
import TekkGram.Interaction.Since

/-!
# Screens that react to events

A screen is a state that every event of the user or of an operation replaces. A law of its states
holds on the way through all events of a history exactly when no event breaks it.
-/

namespace Interaction

variable {State Event : Type} {step : State → Event → State} {init : State}

/-- A condition holds in every state on the way through these events. -/
def Always (step : State → Event → State) (init : State) (P : State → Prop)
    (events : List Event) : Prop :=
  ∀ before after, events = before ++ after → P (before.foldl step init)

section Always

variable {P : State → Prop} {events : List Event} {event : Event}

@[simp] theorem always_nil : Always step init P [] ↔ P init := by
  constructor
  · intro h
    exact h [] [] rfl
  · intro h before after he
    obtain ⟨rfl, rfl⟩ := List.append_eq_nil_iff.mp he.symm
    exact h

/-- One more event adds one state. -/
theorem always_snoc : Always step init P (events ++ [event]) ↔
    Always step init P events ∧ P ((events ++ [event]).foldl step init) := by
  constructor
  · intro h
    refine ⟨fun before after he => h before (after ++ [event]) ?_, h _ [] (List.append_nil _).symm⟩
    rw [he, List.append_assoc]
  · rintro ⟨hbefore, hlast⟩ before after he
    rcases List.eq_nil_or_concat after with rfl | ⟨after, e, rfl⟩
    · rw [List.append_nil] at he
      exact he ▸ hlast
    · have hsplit : events ++ [event] = (before ++ after) ++ [e] := by
        rw [he, List.append_assoc, List.concat_eq_append]
      obtain ⟨rfl, -⟩ := List.append_inj' hsplit rfl
      exact hbefore before after rfl

/-- The last state is one of the states on the way. -/
theorem Always.last (h : Always step init P events) : P (events.foldl step init) :=
  h events [] (List.append_nil _).symm

/-- What holds initially and is kept by every event holds on every way. -/
theorem always_of_step (hinit : P init) (hstep : ∀ s e, P s → P (step s e))
    (events : List Event) : Always step init P events := by
  induction events using List.reverseRecOn with
  | nil => exact always_nil.mpr hinit
  | append_singleton events event ih =>
    refine always_snoc.mpr ⟨ih, ?_⟩
    rw [List.foldl_concat]
    exact hstep _ _ ih.last

/-- When an event keeps a law exactly when it meets a condition of its own, the law holds on a way
exactly when all of its events meet theirs. -/
theorem always_iff {Keeps : State → Event → Prop} (hinit : P init)
    (hstep : ∀ s e, P s → (P (step s e) ↔ Keeps s e)) (events : List Event) :
    Always step init P events ↔
      Throughout (fun before e => Keeps (before.foldl step init) e) events := by
  induction events using List.reverseRecOn with
  | nil => exact iff_of_true (always_nil.mpr hinit) throughout_nil
  | append_singleton events event ih =>
    rw [always_snoc, throughout_append, throughout_cons, ← ih, List.foldl_concat]
    simp only [List.append_nil, throughout_nil, and_true]
    exact and_congr_right fun h => hstep _ _ h.last

end Always

end Interaction
