import Mathlib.Data.List.Basic

/-!
# Programs that call their environment

A program is the tree of its calls: at each call the environment chooses a reply,
and the program continues with it. An environment is a partial step function on
its own states, which accepts or refuses a proposed reply. A run records every
call together with the reply it received, so that facts about outcomes of
calls are facts about the recorded trace.
-/

namespace Interaction

variable {Call : Type} {Reply : Call → Type} {α β W : Type}

/-- A program: a result, or a call whose reply selects the rest of the program. -/
inductive Program (Reply : Call → Type) (β : Type) where
  | done (result : β)
  | call (c : Call) (next : Reply c → Program Reply β)

/-- A call of the environment with the reply it received. -/
structure Event (Reply : Call → Type) where
  call : Call
  reply : Reply call

/-- An environment accepts a reply to a call by moving to its next state. -/
abbrev Environment (W : Type) (Reply : Call → Type) := W → (c : Call) → Reply c → Option W

/-- Sequencing grafts the second program at every result of the first. -/
def Program.bind (p : Program Reply α) (f : α → Program Reply β) : Program Reply β :=
  match p with
  | .done a => f a
  | .call c next => .call c fun r => (next r).bind f

@[simp] theorem Program.done_bind (a : α) (f : α → Program Reply β) :
    (Program.done a : Program Reply α).bind f = f a := rfl

@[simp] theorem Program.call_bind (c : Call) (next : Reply c → Program Reply α)
    (f : α → Program Reply β) :
    (Program.call c next).bind f = .call c fun r => (next r).bind f := rfl

/-- A complete run: every proposed reply is accepted, and the result is reached. -/
inductive Runs (env : Environment W Reply) :
    W → Program Reply β → List (Event Reply) → β → W → Prop
  | done (b : β) (w : W) : Runs env w (.done b) [] b w
  | call {c : Call} {next : Reply c → Program Reply β} {r : Reply c} {w w₁ w₂ : W}
      {tr : List (Event Reply)} {b : β} (haccept : env w c r = some w₁)
      (hrest : Runs env w₁ (next r) tr b w₂) : Runs env w (.call c next) (⟨c, r⟩ :: tr) b w₂

/-- A finished program makes no further call. -/
@[simp] theorem runs_done {env : Environment W Reply} {a b : β} {w w' : W}
    {tr : List (Event Reply)} :
    Runs env w (.done a) tr b w' ↔ tr = [] ∧ b = a ∧ w' = w := by
  constructor
  · intro h
    cases h
    exact ⟨rfl, rfl, rfl⟩
  · rintro ⟨rfl, rfl, rfl⟩
    exact .done _ _

/-- A run of a call exposes its reply and the run of the selected continuation. -/
theorem runs_call {env : Environment W Reply} {c : Call} {next : Reply c → Program Reply β}
    {w w' : W} {tr : List (Event Reply)} {b : β} :
    Runs env w (.call c next) tr b w' ↔
      ∃ r w₁ rest, env w c r = some w₁ ∧ tr = ⟨c, r⟩ :: rest ∧ Runs env w₁ (next r) rest b w' := by
  constructor
  · intro h
    cases h with
    | call haccept hrest => exact ⟨_, _, _, haccept, rfl, hrest⟩
  · rintro ⟨r, w₁, rest, haccept, rfl, hrest⟩
    exact .call haccept hrest

/-- A run of a sequence splits at the result of its first program. -/
theorem runs_bind {env : Environment W Reply} {p : Program Reply α} {f : α → Program Reply β}
    {w w' : W} {tr : List (Event Reply)} {b : β} :
    Runs env w (p.bind f) tr b w' ↔
      ∃ a w₁ tr₁ tr₂, Runs env w p tr₁ a w₁ ∧ Runs env w₁ (f a) tr₂ b w' ∧ tr = tr₁ ++ tr₂ := by
  induction p generalizing w tr with
  | done a =>
    constructor
    · intro h
      exact ⟨a, w, [], tr, .done a w, h, rfl⟩
    · rintro ⟨a', w₁, tr₁, tr₂, h, hf, rfl⟩
      obtain ⟨rfl, rfl, rfl⟩ := runs_done.mp h
      exact hf
  | call c next ih =>
    constructor
    · intro h
      obtain ⟨r, w₁, rest, haccept, rfl, hrest⟩ := runs_call.mp h
      obtain ⟨a, w₂, tr₁, tr₂, hp, hf, rfl⟩ := (ih r).mp hrest
      exact ⟨a, w₂, ⟨c, r⟩ :: tr₁, tr₂, .call haccept hp, hf, rfl⟩
    · rintro ⟨a, w₂, tr₁, tr₂, hp, hf, rfl⟩
      obtain ⟨r, w₁, rest, haccept, rfl, hrest⟩ := runs_call.mp hp
      exact runs_call.mpr
        ⟨r, w₁, rest ++ tr₂, haccept, rfl, (ih r).mpr ⟨a, w₂, rest, tr₂, hrest, hf, rfl⟩⟩

/-- Execute a program against a strategy that picks every reply from the current
state and the number of calls made so far; refused replies stop the execution. -/
def Program.exec (env : Environment W Reply) (answer : Nat → W → (c : Call) → Reply c)
    (p : Program Reply β) (n : Nat) (w : W) : Option (List (Event Reply) × β × W) :=
  match p with
  | .done b => some ([], b, w)
  | .call c next =>
    let r := answer n w c
    match env w c r with
    | none => none
    | some w₁ =>
      match (next r).exec env answer (n + 1) w₁ with
      | none => none
      | some (tr, out) => some (⟨c, r⟩ :: tr, out)

/-- An execution that is not refused is a run. -/
theorem Program.exec_runs {env : Environment W Reply} {answer : Nat → W → (c : Call) → Reply c}
    {p : Program Reply β} {n : Nat} {w w' : W} {tr : List (Event Reply)} {b : β}
    (h : p.exec env answer n w = some (tr, b, w')) : Runs env w p tr b w' := by
  induction p generalizing n w tr with
  | done a =>
    simp only [Program.exec, Option.some.injEq, Prod.mk.injEq] at h
    obtain ⟨rfl, rfl, rfl⟩ := h
    exact .done _ _
  | call c next ih =>
    simp only [Program.exec] at h
    split at h
    · cases h
    · rename_i w₁ haccept
      split at h
      · cases h
      · rename_i rest out hrest
        simp only [Option.some.injEq, Prod.mk.injEq] at h
        obtain ⟨rfl, rfl⟩ := h
        exact .call haccept (ih _ hrest)

/-- An execution that ends in a checked result is a run with that result. -/
theorem Program.exec_any {env : Environment W Reply} {answer : Nat → W → (c : Call) → Reply c}
    {p : Program Reply β} {n : Nat} {w : W} {check : List (Event Reply) × β × W → Bool}
    (h : (p.exec env answer n w).any check = true) :
    ∃ tr b w', Runs env w p tr b w' ∧ check (tr, b, w') = true := by
  obtain ⟨⟨tr, b, w'⟩, he, hcheck⟩ := (Option.any_eq_true _ _).mp h
  exact ⟨tr, b, w', Program.exec_runs he, hcheck⟩

/-- The test for a finished program. -/
def Program.isDone : Program Reply β → Bool
  | .done _ => true
  | .call _ _ => false

theorem Program.exists_of_isDone {p : Program Reply β} (h : p.isDone = true) :
    ∃ b, p = .done b := by
  cases p with
  | done b => exact ⟨b, rfl⟩
  | call c next => cases h

/-- The test for a program that has ended with this result. -/
def Program.returned [DecidableEq β] (b : β) : Program Reply β → Bool
  | .done b' => b' = b
  | .call _ _ => false

theorem Program.eq_done_of_returned [DecidableEq β] {b : β} {p : Program Reply β}
    (h : p.returned b = true) : p = .done b := by
  cases p with
  | done b' => rw [of_decide_eq_true h]
  | call c next => cases h

/-- A run under one environment is a run under any environment that accepts its replies. -/
theorem Runs.mono {env env' : Environment W Reply} {R : Event Reply → Prop}
    (hstep : ∀ w c r w', env w c r = some w' → env' w c r = some w' ∧ R ⟨c, r⟩)
    {p : Program Reply β} {w w' : W} {tr : List (Event Reply)} {b : β}
    (h : Runs env w p tr b w') : Runs env' w p tr b w' ∧ ∀ e ∈ tr, R e := by
  induction h with
  | done b w => exact ⟨.done b w, by simp⟩
  | call haccept hrest ih =>
    obtain ⟨haccept', hR⟩ := hstep _ _ _ _ haccept
    refine ⟨.call haccept' ih.1, fun e he => ?_⟩
    rcases List.mem_cons.mp he with rfl | he
    · exact hR
    · exact ih.2 e he

/-- Every call in the tree of a program satisfies a condition, whatever the replies. -/
def Program.Calls (P : Call → Prop) : Program Reply β → Prop
  | .done _ => True
  | .call c next => P c ∧ ∀ r, (next r).Calls P

/-- The calls of a sequence are those of its two parts. -/
theorem Program.Calls.bind {P : Call → Prop} {p : Program Reply α} {f : α → Program Reply β}
    (hp : p.Calls P) (hf : ∀ a, (f a).Calls P) : (p.bind f).Calls P := by
  induction p with
  | done a => exact hf a
  | call c next ih => exact ⟨hp.1, fun r => ih r (hp.2 r)⟩

/-- A weaker condition holds of the same calls. -/
theorem Program.Calls.mono {P Q : Call → Prop} {p : Program Reply β} (hp : p.Calls P)
    (h : ∀ c, P c → Q c) : p.Calls Q := by
  induction p with
  | done b => trivial
  | call c next ih => exact ⟨h c hp.1, fun r => ih r (hp.2 r)⟩

/-- A strategy that is never refused on the calls of a program completes it: the tree is well
founded. -/
theorem Program.exec_total {env : Environment W Reply} {answer : Nat → W → (c : Call) → Reply c}
    {P : Call → Prop} (h : ∀ n w c, P c → (env w c (answer n w c)).isSome) {p : Program Reply β}
    (hp : p.Calls P) (n : Nat) (w : W) : ∃ tr b w', p.exec env answer n w = some (tr, b, w') := by
  induction p generalizing n w with
  | done b => exact ⟨[], b, w, rfl⟩
  | call c next ih =>
    obtain ⟨w₁, hw₁⟩ := Option.isSome_iff_exists.mp (h n w c hp.1)
    obtain ⟨tr, b, w', he⟩ := ih (answer n w c) (hp.2 _) (n + 1) w₁
    exact ⟨⟨c, answer n w c⟩ :: tr, b, w', by simp only [Program.exec, hw₁, he]⟩

/-- The trace of a run contains calls of the tree only. -/
theorem Runs.trace_calls {env : Environment W Reply} {P : Call → Prop} {p : Program Reply β}
    {w w' : W} {tr : List (Event Reply)} {b : β} (h : Runs env w p tr b w')
    (hp : p.Calls P) : ∀ e ∈ tr, P e.call := by
  induction h with
  | done => simp
  | call haccept hrest ih =>
    intro e he
    rcases List.mem_cons.mp he with rfl | he
    · exact hp.1
    · exact ih (hp.2 _) e he

/-- Frame rule: what every call of the tree preserves, the whole run preserves. -/
theorem Runs.invariant {env : Environment W Reply} {P : Call → Prop} {I : W → Prop}
    {p : Program Reply β} {w w' : W} {tr : List (Event Reply)} {b : β}
    (h : Runs env w p tr b w') (hp : p.Calls P)
    (hstep : ∀ w c r w', P c → env w c r = some w' → I w → I w') (hw : I w) : I w' := by
  induction h with
  | done => exact hw
  | call haccept hrest ih => exact ih (hp.2 _) (hstep _ _ _ _ hp.1 haccept hw)

end Interaction
