import TekkGram.Interaction.Program

/-!
# Asynchronous bodies with exceptions and mutable locals

An asynchronous body is the sequence of its awaited calls. A call may fail, and
its failure is raised as an exception at the call. The locals of the body are
mutable and survive an exception, as captured variables do. The
weakest precondition of a body speaks about the trace of replies, the outcome,
the locals and the state of the environment, and has one rule per construct.
-/

namespace Interaction

variable {Call : Type} {Ans : Call → Type} {ε σ τ α β W : Type}

/-- A call either raises an exception or returns its answer. -/
abbrev Fallible (ε : Type) (Ans : Call → Type) : Call → Type := fun c => Except ε (Ans c)

/-- A body over locals `σ` that ends in a value or an exception. -/
def Async (Ans : Call → Type) (ε σ α : Type) : Type :=
  σ → Program (Fallible ε Ans) (Except ε α × σ)

namespace Async

/-- Return a value without any call. -/
protected def pure (a : α) : Async Ans ε σ α := fun s => .done (.ok a, s)

/-- Sequencing stops at an exception and keeps the locals written so far. -/
protected def bind (m : Async Ans ε σ α) (f : α → Async Ans ε σ β) : Async Ans ε σ β := fun s =>
  (m s).bind fun
    | (.ok a, s') => f a s'
    | (.error e, s') => .done (.error e, s')

instance : Monad (Async Ans ε σ) where
  pure := Async.pure
  bind := Async.bind

/-- Await one call of the environment. -/
def call (c : Call) : Async Ans ε σ (Ans c) := fun s => .call c fun r => .done (r, s)

/-- Raise an exception. -/
def throw (e : ε) : Async Ans ε σ α := fun s => .done (.error e, s)

/-- Read the locals. -/
def get : Async Ans ε σ σ := fun s => .done (.ok s, s)

/-- Write the locals. -/
def modify (f : σ → σ) : Async Ans ε σ Unit := fun s => .done (.ok (), f s)

/-- Run a body and pass its exception, if any, to a handler. -/
def tryCatch (m : Async Ans ε σ α) (handler : ε → Async Ans ε σ α) : Async Ans ε σ α := fun s =>
  (m s).bind fun
    | (.ok a, s') => .done (.ok a, s')
    | (.error e, s') => handler e s'

/-- Run a body and then a finalizer, whose own exception would replace the outcome. -/
def tryFinally (m : Async Ans ε σ α) (finalizer : Async Ans ε σ Unit) : Async Ans ε σ α := fun s =>
  (m s).bind fun (out, s') => (finalizer s').bind fun
    | (.ok _, s'') => .done (out, s'')
    | (.error e, s'') => .done (.error e, s'')

/-- Run a body for its effects only. -/
def ignoreValue (m : Async Ans ε σ α) : Async Ans ε σ Unit := m >>= fun _ => Pure.pure ()

/-- Run a body with locals of its own, dropped at its end. -/
def withLocals (init : τ) (m : Async Ans ε τ α) : Async Ans ε σ α := fun s =>
  (m init).bind fun (out, _) => .done (out, s)

/-- Await a body for each element in order; the first exception ends the loop. -/
def forEach (xs : List β) (f : β → Async Ans ε σ Unit) : Async Ans ε σ Unit :=
  match xs with
  | [] => Pure.pure ()
  | x :: xs => f x >>= fun _ => forEach xs f

theorem forEach_cons {x : β} {xs : List β} {f : β → Async Ans ε σ Unit} :
    forEach (x :: xs) f = f x >>= fun _ => forEach xs f := rfl

/-- A loop over mapped elements maps them in its body. -/
theorem forEach_map {γ : Type} (g : γ → β) (xs : List γ) (f : β → Async Ans ε σ Unit) :
    forEach (xs.map g) f = forEach xs fun x => f (g x) := by
  induction xs with
  | nil => rfl
  | cons x xs ih => rw [List.map_cons, forEach_cons, forEach_cons, ih]

/-- A condition on an outcome, given by a condition on values and one on exceptions. -/
def Ends (onValue : α → Prop) (onException : ε → Prop) : Except ε α → Prop
  | .ok a => onValue a
  | .error e => onException e

@[simp] theorem ends_ok {onValue : α → Prop} {onException : ε → Prop} {a : α} :
    Ends onValue onException (.ok a) ↔ onValue a := Iff.rfl

@[simp] theorem ends_error {onValue : α → Prop} {onException : ε → Prop} {e : ε} :
    Ends onValue onException (.error e) ↔ onException e := Iff.rfl

/-- Every run from these locals and this state ends as the postcondition says. -/
def wp (env : Environment W (Fallible ε Ans)) (m : Async Ans ε σ α)
    (Q : List (Event (Fallible ε Ans)) → Except ε α → σ → W → Prop) (s : σ) (w : W) : Prop :=
  ∀ tr out s' w', Runs env w (m s) tr (out, s') w' → Q tr out s' w'

section Rules

variable {env : Environment W (Fallible ε Ans)} {s : σ} {w : W}

/-- A run meets every postcondition of its body's weakest precondition. -/
theorem wp.elim {m : Async Ans ε σ α}
    {Q : List (Event (Fallible ε Ans)) → Except ε α → σ → W → Prop} (h : m.wp env Q s w)
    {tr : List (Event (Fallible ε Ans))} {out : Except ε α} {s' : σ} {w' : W}
    (hr : Runs env w (m s) tr (out, s') w') : Q tr out s' w' :=
  h tr out s' w' hr

/-- Weakening the postcondition. -/
theorem wp_mono {m : Async Ans ε σ α}
    {P Q : List (Event (Fallible ε Ans)) → Except ε α → σ → W → Prop} (h : m.wp env P s w)
    (hPQ : ∀ tr out s' w', P tr out s' w' → Q tr out s' w') : m.wp env Q s w :=
  fun tr out s' w' hr => hPQ tr out s' w' (h tr out s' w' hr)

/-- Two postconditions hold together when each holds. -/
theorem wp_and {m : Async Ans ε σ α}
    {P Q : List (Event (Fallible ε Ans)) → Except ε α → σ → W → Prop} (hP : m.wp env P s w)
    (hQ : m.wp env Q s w) :
    m.wp env (fun tr out s' w' => P tr out s' w' ∧ Q tr out s' w') s w :=
  fun tr out s' w' hr => ⟨hP tr out s' w' hr, hQ tr out s' w' hr⟩

@[simp] theorem wp_pure {a : α}
    {Q : List (Event (Fallible ε Ans)) → Except ε α → σ → W → Prop} :
    (Pure.pure a : Async Ans ε σ α).wp env Q s w ↔ Q [] (.ok a) s w := by
  constructor
  · intro h
    exact h _ _ _ _ (.done _ _)
  · intro h tr out s' w' hr
    obtain ⟨rfl, he, rfl⟩ := runs_done.mp hr
    cases he
    exact h

@[simp] theorem wp_throw {e : ε}
    {Q : List (Event (Fallible ε Ans)) → Except ε α → σ → W → Prop} :
    (throw e : Async Ans ε σ α).wp env Q s w ↔ Q [] (.error e) s w := by
  constructor
  · intro h
    exact h _ _ _ _ (.done _ _)
  · intro h tr out s' w' hr
    obtain ⟨rfl, he, rfl⟩ := runs_done.mp hr
    cases he
    exact h

@[simp] theorem wp_get {Q : List (Event (Fallible ε Ans)) → Except ε σ → σ → W → Prop} :
    (get : Async Ans ε σ σ).wp env Q s w ↔ Q [] (.ok s) s w := by
  constructor
  · intro h
    exact h _ _ _ _ (.done _ _)
  · intro h tr out s' w' hr
    obtain ⟨rfl, he, rfl⟩ := runs_done.mp hr
    cases he
    exact h

@[simp] theorem wp_modify {f : σ → σ}
    {Q : List (Event (Fallible ε Ans)) → Except ε Unit → σ → W → Prop} :
    (modify f : Async Ans ε σ Unit).wp env Q s w ↔ Q [] (.ok ()) (f s) w := by
  constructor
  · intro h
    exact h _ _ _ _ (.done _ _)
  · intro h tr out s' w' hr
    obtain ⟨rfl, he, rfl⟩ := runs_done.mp hr
    cases he
    exact h

/-- A call is left with any reply the environment accepts. -/
theorem wp_call {c : Call} {Q : List (Event (Fallible ε Ans)) → Except ε (Ans c) → σ → W → Prop} :
    (call c : Async Ans ε σ (Ans c)).wp env Q s w ↔
      ∀ (r : Except ε (Ans c)) (w' : W), env w c r = some w' → Q [⟨c, r⟩] r s w' := by
  constructor
  · intro h r w' haccept
    exact h _ _ _ _ (.call haccept (.done _ _))
  · intro h tr out s' w' hr
    obtain ⟨r, w₁, rest, haccept, rfl, hrest⟩ := runs_call.mp hr
    obtain ⟨rfl, he, rfl⟩ := runs_done.mp hrest
    cases he
    exact h _ _ haccept

/-- A sequence continues at a value and stops at an exception. -/
theorem wp_bind {m : Async Ans ε σ α} {f : α → Async Ans ε σ β}
    {Q : List (Event (Fallible ε Ans)) → Except ε β → σ → W → Prop} :
    (m >>= f).wp env Q s w ↔ m.wp env (fun tr out s' w' =>
      Ends (fun a => (f a).wp env (fun tr' => Q (tr ++ tr')) s' w')
        (fun e => Q tr (.error e) s' w') out) s w := by
  constructor
  · intro h tr out s' w' hr
    cases out with
    | ok a =>
      intro tr' out' s'' w'' hr'
      exact h _ _ _ _ (runs_bind.mpr ⟨(.ok a, s'), w', tr, tr', hr, hr', rfl⟩)
    | error e =>
      refine h _ _ _ _ (runs_bind.mpr ⟨(.error e, s'), w', tr, [], hr, .done _ _, ?_⟩)
      rw [List.append_nil]
  · intro h tr out s' w' hr
    obtain ⟨⟨out₁, s₁⟩, w₁, tr₁, tr₂, hm, hf, rfl⟩ := runs_bind.mp hr
    have hq := h _ _ _ _ hm
    cases out₁ with
    | ok a => exact hq _ _ _ _ hf
    | error e =>
      obtain ⟨rfl, he, rfl⟩ := runs_done.mp hf
      cases he
      rwa [List.append_nil]

/-- What does not depend on the value of a body holds when the value is ignored. -/
theorem wp_ignoreValue {m : Async Ans ε σ α} {Q : List (Event (Fallible ε Ans)) → σ → W → Prop}
    (h : m.wp env (fun tr _ s' w' => Q tr s' w') s w) :
    (ignoreValue m).wp env (fun tr _ s' w' => Q tr s' w') s w := by
  refine wp_bind.mpr (wp_mono h ?_)
  intro tr out s' w' hq
  cases out with
  | ok a => rwa [ends_ok, wp_pure, List.append_nil]
  | error e => exact hq

/-- A body whose value is only mapped runs as the body does. -/
theorem runs_map {m : Async Ans ε σ α} {g : α → β} {tr : List (Event (Fallible ε Ans))}
    {out : Except ε β} {s' : σ} {w' : W}
    (h : Runs env w ((m >>= fun a => Pure.pure (g a) : Async Ans ε σ β) s) tr (out, s') w') :
    ∃ out', Runs env w (m s) tr (out', s') w' ∧ out = out'.map g := by
  obtain ⟨⟨out', s₁⟩, w₁, tr₁, tr₂, hm, hend, rfl⟩ := runs_bind.mp h
  cases out' with
  | ok a =>
    obtain ⟨rfl, he, rfl⟩ := runs_done.mp hend
    cases he
    rw [List.append_nil]
    exact ⟨.ok a, hm, rfl⟩
  | error e =>
    obtain ⟨rfl, he, rfl⟩ := runs_done.mp hend
    cases he
    rw [List.append_nil]
    exact ⟨.error e, hm, rfl⟩

/-- A handler runs exactly after an exception of the body. -/
theorem wp_tryCatch {m : Async Ans ε σ α} {handler : ε → Async Ans ε σ α}
    {Q : List (Event (Fallible ε Ans)) → Except ε α → σ → W → Prop} :
    (tryCatch m handler).wp env Q s w ↔ m.wp env (fun tr out s' w' =>
      Ends (fun a => Q tr (.ok a) s' w')
        (fun e => (handler e).wp env (fun tr' => Q (tr ++ tr')) s' w') out) s w := by
  constructor
  · intro h tr out s' w' hr
    cases out with
    | ok a =>
      refine h _ _ _ _ (runs_bind.mpr ⟨(.ok a, s'), w', tr, [], hr, .done _ _, ?_⟩)
      rw [List.append_nil]
    | error e =>
      intro tr' out' s'' w'' hr'
      exact h _ _ _ _ (runs_bind.mpr ⟨(.error e, s'), w', tr, tr', hr, hr', rfl⟩)
  · intro h tr out s' w' hr
    obtain ⟨⟨out₁, s₁⟩, w₁, tr₁, tr₂, hm, hf, rfl⟩ := runs_bind.mp hr
    have hq := h _ _ _ _ hm
    cases out₁ with
    | ok a =>
      obtain ⟨rfl, he, rfl⟩ := runs_done.mp hf
      cases he
      rwa [List.append_nil]
    | error e => exact hq _ _ _ _ hf

/-- A handler that only swallows the exception leaves none. -/
theorem wp_swallow {m : Async Ans ε σ Unit}
    {Q : List (Event (Fallible ε Ans)) → Except ε Unit → σ → W → Prop} :
    (tryCatch m fun _ => Pure.pure ()).wp env Q s w ↔
      m.wp env (fun tr _ s' w' => Q tr (.ok ()) s' w') s w := by
  rw [wp_tryCatch]
  refine forall₂_congr fun tr out => forall₂_congr fun s' w' => imp_congr_right fun _ => ?_
  cases out with
  | ok _ => rfl
  | error e => simp only [ends_error, wp_pure, List.append_nil]

/-- A finalizer runs after every outcome of the body. -/
theorem wp_tryFinally {m : Async Ans ε σ α} {finalizer : Async Ans ε σ Unit}
    {Q : List (Event (Fallible ε Ans)) → Except ε α → σ → W → Prop} :
    (tryFinally m finalizer).wp env Q s w ↔ m.wp env (fun tr out s' w' =>
      finalizer.wp env (fun tr' out' s'' w'' =>
        Ends (fun _ => Q (tr ++ tr') out s'' w'')
          (fun e => Q (tr ++ tr') (.error e) s'' w'') out') s' w') s w := by
  constructor
  · intro h tr out s' w' hr tr' out' s'' w'' hf
    have hfin : ∀ o, Runs env w'' (match (out', s'') with
        | (.ok _, t) => (.done (out, t) : Program (Fallible ε Ans) (Except ε α × σ))
        | (.error e, t) => .done (.error e, t)) [] o w'' → Q (tr ++ tr') o.1 o.2 w'' := by
      intro o ho
      refine h _ _ _ _ (runs_bind.mpr ⟨(out, s'), w', tr, tr', hr, ?_, rfl⟩)
      exact runs_bind.mpr ⟨(out', s''), w'', tr', [], hf, ho, by rw [List.append_nil]⟩
    cases out' with
    | ok _ => exact hfin (out, s'') (.done _ _)
    | error e => exact hfin (.error e, s'') (.done _ _)
  · intro h tr out s' w' hr
    obtain ⟨⟨out₁, s₁⟩, w₁, tr₁, tr₂, hm, hrest, rfl⟩ := runs_bind.mp hr
    obtain ⟨⟨out₂, s₂⟩, w₂, tr₃, tr₄, hf, hend, rfl⟩ := runs_bind.mp hrest
    have hq := h _ _ _ _ hm _ _ _ _ hf
    cases out₂ with
    | ok _ =>
      obtain ⟨rfl, he, rfl⟩ := runs_done.mp hend
      cases he
      rwa [List.append_nil]
    | error e =>
      obtain ⟨rfl, he, rfl⟩ := runs_done.mp hend
      cases he
      rwa [List.append_nil]

/-- The locals of a scope do not reach its caller. -/
theorem wp_withLocals {init : τ} {m : Async Ans ε τ α}
    {Q : List (Event (Fallible ε Ans)) → Except ε α → σ → W → Prop} :
    (withLocals init m).wp env Q s w ↔ m.wp env (fun tr out _ w' => Q tr out s w') init w := by
  constructor
  · intro h tr out s' w' hr
    refine h _ _ _ _ (runs_bind.mpr ⟨(out, s'), w', tr, [], hr, .done _ _, ?_⟩)
    rw [List.append_nil]
  · intro h tr out s' w' hr
    obtain ⟨⟨out₁, s₁⟩, w₁, tr₁, tr₂, hm, hend, rfl⟩ := runs_bind.mp hr
    obtain ⟨rfl, he, rfl⟩ := runs_done.mp hend
    cases he
    rw [List.append_nil]
    exact h _ _ _ _ hm

@[simp] theorem wp_forEach_nil {f : β → Async Ans ε σ Unit}
    {Q : List (Event (Fallible ε Ans)) → Except ε Unit → σ → W → Prop} :
    (forEach [] f).wp env Q s w ↔ Q [] (.ok ()) s w := wp_pure

theorem wp_forEach_cons {x : β} {xs : List β} {f : β → Async Ans ε σ Unit}
    {Q : List (Event (Fallible ε Ans)) → Except ε Unit → σ → W → Prop} :
    (forEach (x :: xs) f).wp env Q s w ↔ (f x).wp env (fun tr out s' w' =>
      Ends (fun _ => (forEach xs f).wp env (fun tr' => Q (tr ++ tr')) s' w')
        (fun e => Q tr (.error e) s' w') out) s w := by
  rw [forEach_cons, wp_bind]

/-- A loop over one element is its body. -/
theorem wp_forEach_singleton {x : β} {f : β → Async Ans ε σ Unit}
    {Q : List (Event (Fallible ε Ans)) → Except ε Unit → σ → W → Prop} :
    (forEach [x] f).wp env Q s w ↔ (f x).wp env Q s w := by
  rw [wp_forEach_cons]
  refine forall₂_congr fun tr out => forall₂_congr fun s' w' => imp_congr_right fun _ => ?_
  cases out with
  | ok _ => simp only [ends_ok, wp_forEach_nil, List.append_nil]
  | error e => rfl

/-- A loop over two lists is the loop over the first and then over the second. -/
theorem wp_forEach_append {xs ys : List β} {f : β → Async Ans ε σ Unit}
    {Q : List (Event (Fallible ε Ans)) → Except ε Unit → σ → W → Prop} :
    (forEach (xs ++ ys) f).wp env Q s w ↔ (forEach xs f).wp env (fun tr out s' w' =>
      Ends (fun _ => (forEach ys f).wp env (fun tr' => Q (tr ++ tr')) s' w')
        (fun e => Q tr (.error e) s' w') out) s w := by
  induction xs generalizing s w Q with
  | nil => simp only [List.nil_append, wp_forEach_nil, ends_ok]
  | cons x xs ih =>
    rw [List.cons_append, wp_forEach_cons, wp_forEach_cons]
    simp only [ih, List.append_assoc, ends_error]

/-- Loop rule: an invariant over the elements done so far, kept by every iteration
that returns; an iteration that raises must establish the postcondition itself. -/
theorem wp_forEach {xs : List β} {f : β → Async Ans ε σ Unit}
    {Q : List (Event (Fallible ε Ans)) → Except ε Unit → σ → W → Prop}
    (I : List β → List (Event (Fallible ε Ans)) → σ → W → Prop) (hinit : I [] [] s w)
    (hbody : ∀ before x after tr s w, xs = before ++ x :: after → I before tr s w →
      (f x).wp env (fun tr' out s' w' =>
        Ends (fun _ => I (before ++ [x]) (tr ++ tr') s' w')
          (fun e => Q (tr ++ tr') (.error e) s' w') out) s w)
    (hend : ∀ tr s w, I xs tr s w → Q tr (.ok ()) s w) : (forEach xs f).wp env Q s w := by
  suffices hloop : ∀ before after tr s w, xs = before ++ after → I before tr s w →
      (forEach after f).wp env (fun tr' => Q (tr ++ tr')) s w by
    simpa only [List.nil_append] using hloop [] xs [] s w rfl hinit
  intro before after
  induction after generalizing before with
  | nil =>
    intro tr s w he hi
    rw [wp_forEach_nil, List.append_nil]
    rw [List.append_nil] at he
    subst he
    exact hend tr s w hi
  | cons x rest ih =>
    intro tr s w he hi
    rw [wp_forEach_cons]
    refine wp_mono (hbody before x rest tr s w he hi) ?_
    intro tr' out s' w' hout
    cases out with
    | ok _ =>
      have hnext := ih (before ++ [x]) (tr ++ tr') s' w'
        (by simpa only [List.append_assoc, List.singleton_append] using he) hout
      simpa only [ends_ok, List.append_assoc] using hnext
    | error e => exact hout

end Rules

/-- Every call a body can make satisfies a condition. -/
def Calls (P : Call → Prop) (m : Async Ans ε σ α) : Prop := ∀ s, (m s).Calls P

section Calls

variable {P : Call → Prop}

/-- A weaker condition holds of the same calls. -/
theorem Calls.mono {Q : Call → Prop} {m : Async Ans ε σ α} (hm : m.Calls P)
    (h : ∀ c, P c → Q c) : m.Calls Q := fun s => (hm s).mono h

theorem calls_pure {a : α} : (Pure.pure a : Async Ans ε σ α).Calls P := fun _ => trivial

theorem calls_throw {e : ε} : (throw e : Async Ans ε σ α).Calls P := fun _ => trivial

theorem calls_get : (get : Async Ans ε σ σ).Calls P := fun _ => trivial

theorem calls_modify {f : σ → σ} : (modify f : Async Ans ε σ Unit).Calls P := fun _ => trivial

theorem calls_call {c : Call} (h : P c) : (call c : Async Ans ε σ (Ans c)).Calls P :=
  fun _ => ⟨h, fun _ => trivial⟩

theorem calls_bind {m : Async Ans ε σ α} {f : α → Async Ans ε σ β} (hm : m.Calls P)
    (hf : ∀ a, (f a).Calls P) : (m >>= f).Calls P := by
  intro s
  refine (hm s).bind ?_
  rintro ⟨out, s'⟩
  cases out with
  | ok a => exact hf a s'
  | error e => trivial

theorem calls_tryCatch {m : Async Ans ε σ α} {handler : ε → Async Ans ε σ α} (hm : m.Calls P)
    (hh : ∀ e, (handler e).Calls P) : (tryCatch m handler).Calls P := by
  intro s
  refine (hm s).bind ?_
  rintro ⟨out, s'⟩
  cases out with
  | ok a => trivial
  | error e => exact hh e s'

theorem calls_tryFinally {m : Async Ans ε σ α} {finalizer : Async Ans ε σ Unit} (hm : m.Calls P)
    (hf : finalizer.Calls P) : (tryFinally m finalizer).Calls P := by
  intro s
  refine (hm s).bind ?_
  rintro ⟨out, s'⟩
  refine (hf s').bind ?_
  rintro ⟨out', s''⟩
  cases out' <;> trivial

theorem calls_withLocals {init : τ} {m : Async Ans ε τ α} (hm : m.Calls P) :
    (withLocals init m : Async Ans ε σ α).Calls P := fun _ => (hm init).bind fun _ => trivial

theorem calls_forEach {xs : List β} {f : β → Async Ans ε σ Unit}
    (hf : ∀ x ∈ xs, (f x).Calls P) : (forEach xs f).Calls P := by
  induction xs with
  | nil => exact calls_pure
  | cons x xs ih =>
    exact calls_bind (hf x (List.mem_cons_self ..)) fun _ =>
      ih fun y hy => hf y (List.mem_cons_of_mem _ hy)

/-- The trace of a body contains only calls of that body. -/
theorem wp_calls {env : Environment W (Fallible ε Ans)} {m : Async Ans ε σ α} (hm : m.Calls P)
    (s : σ) (w : W) : m.wp env (fun tr _ _ _ => ∀ e ∈ tr, P e.call) s w :=
  fun _ _ _ _ hr => hr.trace_calls (hm s)

/-- A condition kept by every call of a body holds after the body. -/
theorem wp_invariant {env : Environment W (Fallible ε Ans)} {m : Async Ans ε σ α} {I : W → Prop}
    (hm : m.Calls P) (hstep : ∀ w c r w', P c → env w c r = some w' → I w → I w') (s : σ) {w : W}
    (hw : I w) : m.wp env (fun _ _ _ w' => I w') s w :=
  fun _ _ _ _ hr => hr.invariant (hm s) hstep hw

/-- A postcondition on the trace and the outcome that holds when the first part raises, and stays
true with the calls of the first part before it, is that of the second part. -/
theorem wp_bind_calls {env : Environment W (Fallible ε Ans)} {m : Async Ans ε σ α}
    {f : α → Async Ans ε σ β} {Q : List (Event (Fallible ε Ans)) → Except ε β → Prop}
    (hm : m.Calls P) (herror : ∀ tr e, (∀ ev ∈ tr, P ev.call) → Q tr (.error e))
    (hprepend : ∀ tr tr' out, (∀ ev ∈ tr, P ev.call) → Q tr' out → Q (tr ++ tr') out)
    (hf : ∀ a s w, (f a).wp env (fun tr out _ _ => Q tr out) s w) (s : σ) (w : W) :
    (m >>= f).wp env (fun tr out _ _ => Q tr out) s w := by
  refine wp_bind.mpr (wp_mono (wp_calls hm s w) ?_)
  intro tr out s' w' hcalls
  cases out with
  | error e => exact herror tr e hcalls
  | ok a =>
    refine wp_mono (hf a s' w') ?_
    intro tr' out _ _ hq
    exact hprepend tr tr' out hcalls hq

end Calls

end Async

end Interaction
