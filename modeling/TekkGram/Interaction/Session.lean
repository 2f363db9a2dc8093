import TekkGram.Interaction.Program

/-!
# Sessions: operations one after another

A session runs each operation to completion before it starts the next one. It
records every completed operation with the state it started from, so that a
guard on a step may speak about that state, about the trace of the step, and
about everything the session has seen before it.
-/

namespace Interaction

variable {Call : Type} {Reply : Call → Type} {Op β W : Type}

/-- A completed operation: the state before it, its replies and its result. -/
structure Completed (W Op : Type) (Reply : Call → Type) (β : Type) where
  before : W
  op : Op
  trace : List (Event Reply)
  result : β

/-- Sessions from `w₀` in which every step meets the guard. -/
inductive Session (env : Environment W Reply) (program : Op → Program Reply β)
    (guard : List (Completed W Op Reply β) → Completed W Op Reply β → Prop) (w₀ : W) :
    List (Completed W Op Reply β) → W → Prop
  | nil : Session env program guard w₀ [] w₀
  | snoc {past : List (Completed W Op Reply β)} {w w' : W} {op : Op}
      {tr : List (Event Reply)} {b : β} (hpast : Session env program guard w₀ past w)
      (hrun : Runs env w (program op) tr b w') (hguard : guard past ⟨w, op, tr, b⟩) :
      Session env program guard w₀ (past ++ [⟨w, op, tr, b⟩]) w'

/-- What holds initially and is kept by every guarded step holds after every session. -/
theorem Session.invariant {env : Environment W Reply} {program : Op → Program Reply β}
    {guard : List (Completed W Op Reply β) → Completed W Op Reply β → Prop} {w₀ w : W}
    {past : List (Completed W Op Reply β)} (h : Session env program guard w₀ past w)
    (I : List (Completed W Op Reply β) → W → Prop) (hinit : I [] w₀)
    (hstep : ∀ past w op tr b w', I past w → guard past ⟨w, op, tr, b⟩ →
      Runs env w (program op) tr b w' → I (past ++ [⟨w, op, tr, b⟩]) w') : I past w := by
  induction h with
  | nil => exact hinit
  | snoc hpast hrun hguard ih => exact hstep _ _ _ _ _ _ ih hguard hrun

/-- When every operation keeps a condition on states exactly when it meets a condition of its own,
all states of a session meet the first exactly when all of its operations meet the second. -/
theorem Session.state_iff {env : Environment W Reply} {program : Op → Program Reply β} {w₀ w : W}
    {past : List (Completed W Op Reply β)} (h : Session env program (fun _ _ => True) w₀ past w)
    (I : W → Prop) (K : Completed W Op Reply β → Prop) (hinit : I w₀)
    (hstep : ∀ w op tr b w', I w → Runs env w (program op) tr b w' →
      (I w' ↔ K ⟨w, op, tr, b⟩)) :
    ((∀ step ∈ past, I step.before) ∧ I w) ↔ ∀ step ∈ past, K step := by
  induction h with
  | nil => exact iff_of_true ⟨List.forall_mem_nil _, hinit⟩ (List.forall_mem_nil _)
  | snoc _ hrun _ ih =>
    simp only [List.forall_mem_append, List.forall_mem_singleton]
    constructor
    · rintro ⟨⟨hbefore, hi⟩, hafter⟩
      exact ⟨ih.mp ⟨hbefore, hi⟩, (hstep _ _ _ _ _ hi hrun).mp hafter⟩
    · rintro ⟨hkept, hlast⟩
      obtain ⟨hbefore, hi⟩ := ih.mpr hkept
      exact ⟨⟨hbefore, hi⟩, (hstep _ _ _ _ _ hi hrun).mpr hlast⟩

/-- A single operation is a session of one step. -/
theorem Session.single {env : Environment W Reply} {program : Op → Program Reply β}
    {guard : List (Completed W Op Reply β) → Completed W Op Reply β → Prop} {w w' : W} {op : Op}
    {tr : List (Event Reply)} {b : β} (hrun : Runs env w (program op) tr b w')
    (hguard : guard [] ⟨w, op, tr, b⟩) :
    Session env program guard w [⟨w, op, tr, b⟩] w' :=
  .snoc .nil hrun hguard

end Interaction
