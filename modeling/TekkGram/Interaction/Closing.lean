import TekkGram.Interaction.Async
import TekkGram.Interaction.Pool

/-!
# Programs that close with their last call

A program may be allowed one kind of call only as its last one, such as the release of what it
holds. Replies of an excluded kind end what is asked of it: after them it may make any call.
-/

namespace Interaction

variable {Call : Type} {Reply : Call → Type} {α β W : Type}

/-- While the replies are of the kind `R`, every call is of the kind `K`, or of the kind `L` and the
last one, after which the result is in `D`. -/
def Program.Closes (R : Event Reply → Prop) (K L : Call → Prop) (D : β → Prop) :
    Program Reply β → Prop
  | .done _ => True
  | .call c next => (K c ∨ L c ∧ ∀ r, ∃ b, D b ∧ next r = .done b) ∧
    ∀ r, R ⟨c, r⟩ → (next r).Closes R K L D

/-- One call of the kind `L`, and nothing after it. -/
def Program.Single (L : Call → Prop) (p : Program Reply β) : Prop :=
  ∃ c next, p = .call c next ∧ L c ∧ ∀ r, ∃ b, next r = .done b

section Closes

variable {R : Event Reply → Prop} {K L : Call → Prop}

/-- A program whose calls are all of the first kind does not close. -/
theorem Program.Calls.closes {p : Program Reply β} (h : p.Calls K) (D : β → Prop) :
    p.Closes R K L D := by
  induction p with
  | done b => trivial
  | call c next ih => exact ⟨.inl h.1, fun r _ => ih r (h.2 r)⟩

/-- A sequence closes when its second part does and ends at once after a first part that closed. -/
theorem Program.Closes.bind {p : Program Reply α} {f : α → Program Reply β} {D : α → Prop}
    {D' : β → Prop} (hp : p.Closes R K L D) (hD : ∀ a, D a → ∃ b, D' b ∧ f a = .done b)
    (hf : ∀ a, (f a).Closes R K L D') : (p.bind f).Closes R K L D' := by
  induction p with
  | done a => exact hf a
  | call c next ih =>
    refine ⟨?_, fun r hr => ih r (hp.2 r hr)⟩
    rcases hp.1 with hkeeps | ⟨hlast, hnext⟩
    · exact .inl hkeeps
    · refine .inr ⟨hlast, fun r => ?_⟩
      obtain ⟨a, ha, hdone⟩ := hnext r
      obtain ⟨b, hb, hend⟩ := hD a ha
      exact ⟨b, hb, by simp only [hdone, Program.done_bind, hend]⟩

end Closes

namespace Async

variable {Ans : Call → Type} {ε σ τ : Type} {R : Event (Fallible ε Ans) → Prop} {K L : Call → Prop}

/-- A body closes with the outcomes in `D`. -/
def Closes (R : Event (Fallible ε Ans) → Prop) (K L : Call → Prop) (D : Except ε α → Prop)
    (m : Async Ans ε σ α) : Prop := ∀ s, (m s).Closes R K L fun out => D out.1

/-- A body that may not make the last kind of call at all. -/
abbrev Keeps (R : Event (Fallible ε Ans) → Prop) (K L : Call → Prop) (m : Async Ans ε σ α) : Prop :=
  m.Closes R K L fun _ => False

variable {D : Except ε α → Prop} {D' : Except ε β → Prop}

theorem Calls.closes {m : Async Ans ε σ α} (h : m.Calls K) : m.Closes R K L D :=
  fun s => (h s).closes _

theorem closes_pure {a : α} : (Pure.pure a : Async Ans ε σ α).Closes R K L D := fun _ => trivial

theorem closes_throw {e : ε} : (throw e : Async Ans ε σ α).Closes R K L D := fun _ => trivial

theorem closes_get {D : Except ε σ → Prop} : (get : Async Ans ε σ σ).Closes R K L D :=
  fun _ => trivial

theorem closes_call {c : Call} (h : K c) {D : Except ε (Ans c) → Prop} :
    (call c : Async Ans ε σ (Ans c)).Closes R K L D := fun _ => ⟨.inl h, fun _ _ => trivial⟩

/-- The last call. -/
theorem closes_last {c : Call} (h : L c) {D : Except ε (Ans c) → Prop} (hD : ∀ out, D out) :
    (call c : Async Ans ε σ (Ans c)).Closes R K L D := fun _ =>
  ⟨.inr ⟨h, fun r => ⟨_, hD r, rfl⟩⟩, fun _ _ => trivial⟩

/-- A sequence closes when its second part does and ends at once after a first part that closed. -/
theorem closes_bind {m : Async Ans ε σ α} {f : α → Async Ans ε σ β} (hm : m.Closes R K L D)
    (hvalue : ∀ a, D (.ok a) → ∀ s, ∃ out, D' out.1 ∧ f a s = .done out)
    (hexception : ∀ e, D (.error e) → D' (.error e)) (hf : ∀ a, (f a).Closes R K L D') :
    (m >>= f).Closes R K L D' := by
  intro s
  refine (hm s).bind ?_ ?_
  · rintro ⟨out, s'⟩ hout
    cases out with
    | ok a => exact hvalue a hout s'
    | error e => exact ⟨(.error e, s'), hexception e hout, rfl⟩
  · rintro ⟨out, s'⟩
    cases out with
    | ok a => exact hf a s'
    | error e => trivial

/-- A first part that does not close. -/
theorem closes_bind_keeps {m : Async Ans ε σ α} {f : α → Async Ans ε σ β} (hm : m.Keeps R K L)
    (hf : ∀ a, (f a).Closes R K L D') : (m >>= f).Closes R K L D' :=
  closes_bind hm (fun _ h => h.elim) (fun _ h => h.elim) hf

/-- Only the answers of the kind asked for are followed. -/
theorem closes_call_bind {c : Call} {f : Ans c → Async Ans ε σ β} (h : K c)
    (hf : ∀ a, R ⟨c, .ok a⟩ → (f a).Closes R K L D') :
    ((call c : Async Ans ε σ (Ans c)) >>= f).Closes R K L D' := by
  refine fun s => ⟨.inl h, fun r hr => ?_⟩
  cases r with
  | ok a => exact hf a hr s
  | error e => trivial

theorem closes_ignoreValue {m : Async Ans ε σ α} (hm : m.Closes R K L fun _ => True) :
    (ignoreValue m).Closes R K L fun _ => True :=
  closes_bind hm (fun _ _ s => ⟨(.ok (), s), trivial, rfl⟩) (fun _ _ => trivial) fun _ =>
    closes_pure

theorem keeps_tryCatch {m : Async Ans ε σ α} {handler : ε → Async Ans ε σ α} (hm : m.Keeps R K L)
    (hh : ∀ e, (handler e).Keeps R K L) : (tryCatch m handler).Keeps R K L := by
  intro s
  refine (hm s).bind (fun _ h => h.elim) ?_
  rintro ⟨out, s'⟩
  cases out with
  | ok a => trivial
  | error e => exact hh e s'

/-- A finalizer that is the last call closes. -/
theorem closes_tryFinally {m : Async Ans ε σ α} {finalizer : Async Ans ε σ Unit}
    (hm : m.Keeps R K L) (hfinalizer : ∀ s, (finalizer s).Single L) :
    (tryFinally m finalizer).Closes R K L fun _ => True := by
  intro s
  refine (hm s).bind (fun _ h => h.elim) ?_
  rintro ⟨out, s'⟩
  obtain ⟨c, next, hcall, hlast, hnext⟩ := hfinalizer s'
  simp only [hcall, Program.call_bind]
  refine ⟨.inr ⟨hlast, fun r => ?_⟩, fun r _ => ?_⟩
  · obtain ⟨⟨out', s''⟩, hdone⟩ := hnext r
    cases out' <;> simp [hdone]
  · obtain ⟨⟨out', s''⟩, hdone⟩ := hnext r
    cases out' <;> simp [hdone, Program.Closes]

theorem closes_withLocals {init : τ} {m : Async Ans ε τ α} (hm : m.Closes R K L D) :
    (withLocals init m : Async Ans ε σ α).Closes R K L D :=
  fun s => (hm init).bind (fun out h => ⟨(out.1, s), h, rfl⟩) fun _ => trivial

theorem keeps_forEach {xs : List β} {f : β → Async Ans ε σ Unit}
    (hf : ∀ x ∈ xs, (f x).Keeps R K L) : (forEach xs f).Keeps R K L := by
  induction xs with
  | nil => exact closes_pure
  | cons x xs ih =>
    exact closes_bind_keeps (hf x (List.mem_cons_self ..)) fun _ =>
      ih fun y hy => hf y (List.mem_cons_of_mem _ hy)

end Async

end Interaction
