import TekkGram.Interaction.Async

/-!
# Programs until a point

While the replies are of one kind, a program may have to pass through a known later program:
until then it makes calls of one kind only. This locates a point in the run of a program whose
loops precede it, without naming the stages of these loops.
-/

namespace Interaction

variable {Call : Type} {Reply : Call → Type} {β γ : Type}

/-- As long as every reply is of the kind `R`, the program makes calls of the kind `C` until it
is the program `q`. -/
inductive Program.Until (R : Event Reply → Prop) (C : Call → Prop) (q : Program Reply β) :
    Program Reply β → Prop
  | here : Program.Until R C q q
  | call {c : Call} {next : Reply c → Program Reply β} (hc : C c)
      (hnext : ∀ r, R ⟨c, r⟩ → Program.Until R C q (next r)) : Program.Until R C q (.call c next)

section Until

variable {R : Event Reply → Prop} {C : Call → Prop}

/-- Sequencing both programs keeps the way between them. -/
theorem Program.Until.bind {p q : Program Reply γ} (h : Program.Until R C q p)
    (f : γ → Program Reply β) : Program.Until R C (q.bind f) (p.bind f) := by
  induction h with
  | here => exact .here
  | call hc _ ih => exact .call hc ih

/-- Two ways compose. -/
theorem Program.Until.trans {p q r : Program Reply β} (h : Program.Until R C q p)
    (h' : Program.Until R C r q) : Program.Until R C r p := by
  induction h with
  | here => exact h'
  | call hc _ ih => exact .call hc ih

end Until

namespace Async

variable {Ans : Call → Type} {ε σ α : Type}

/-- The call of this event returned an answer. -/
def Answered (e : Event (Fallible ε Ans)) : Prop := ∃ a, e.reply = .ok a

/-- The test for a call that returned. -/
def answered (e : Event (Fallible ε Ans)) : Bool :=
  match e.reply with
  | .ok _ => true
  | .error _ => false

theorem answered_iff {e : Event (Fallible ε Ans)} : answered e = true ↔ Answered e := by
  obtain ⟨c, r⟩ := e
  cases r with
  | ok a => exact iff_of_true rfl ⟨a, rfl⟩
  | error e => exact iff_of_false nofun nofun

variable {C : Call → Prop} {s : σ}

/-- A sequence goes through the end of its first body. -/
theorem until_bind {m : Async Ans ε σ γ} {f : γ → Async Ans ε σ α} {a : γ} {s' : σ}
    {q : Program (Fallible ε Ans) (Except ε α × σ)}
    (hm : Program.Until Answered C (.done (.ok a, s')) (m s))
    (hf : Program.Until Answered C q (f a s')) : Program.Until Answered C q ((m >>= f) s) :=
  (hm.bind _).trans hf

/-- A call with only one possible answer ends with it. -/
theorem until_call (Ans : Call → Type) (c : Call) [Subsingleton (Ans c)] (hc : C c) (a : Ans c) :
    Program.Until Answered C (.done (.ok a, s)) ((call c : Async Ans ε σ (Ans c)) s) := by
  refine .call hc fun r hr => ?_
  obtain ⟨b, hb⟩ : ∃ b, r = .ok b := hr
  rw [hb, Subsingleton.elim b a]
  exact .here

/-- A loop ends when each of its iterations does. -/
theorem until_forEach {xs : List γ} {f : γ → Async Ans ε σ Unit}
    (hf : ∀ x ∈ xs, Program.Until Answered C (.done (.ok (), s)) (f x s)) :
    Program.Until Answered C (.done (.ok (), s)) (forEach xs f s) := by
  induction xs with
  | nil => exact .here
  | cons x xs ih =>
    exact until_bind (hf x (List.mem_cons_self ..))
      (ih fun y hy => hf y (List.mem_cons_of_mem _ hy))

/-- The way continues inside a handler. -/
theorem until_tryCatch {m m' : Async Ans ε σ α} {handler : ε → Async Ans ε σ α} {s' : σ}
    (h : Program.Until Answered C (m' s') (m s)) :
    Program.Until Answered C (tryCatch m' handler s') (tryCatch m handler s) := h.bind _

/-- The way continues under a finalizer. -/
theorem until_tryFinally {m m' : Async Ans ε σ α} {finalizer : Async Ans ε σ Unit} {s' : σ}
    (h : Program.Until Answered C (m' s') (m s)) :
    Program.Until Answered C (tryFinally m' finalizer s') (tryFinally m finalizer s) := h.bind _

end Async

end Interaction
