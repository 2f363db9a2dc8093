import Mathlib.Data.List.Nodup
import TekkGram.Interaction.Async
import TekkGram.Interaction.Placed

/-!
# Effects in one order

A program may act on an abstract state through the effects of some of its calls. Where every step
of the environment is the effect of its call, an interleaving does to the abstract state what its
effects do one after another. A body that takes effect exactly once if it succeeds, and never
otherwise, then acts at one moment between its first call and its last.
-/

namespace Interaction

variable {Call : Type} {Reply : Call → Type} {β ι S E W : Type}

/-- Effects one after another, each allowed where it stands. -/
inductive Performs (T : S → E → S → Prop) (s : S) : List E → S → Prop
  | nil : Performs T s [] s
  | snoc {es : List E} {s' s'' : S} {e : E} (hpast : Performs T s es s') (hnext : T s' e s'') :
      Performs T s (es ++ [e]) s''

/-- One more effect acts where the others have led. -/
theorem performs_snoc {T : S → E → S → Prop} {s s'' : S} {es : List E} {e : E} :
    Performs T s (es ++ [e]) s'' ↔ ∃ s', Performs T s es s' ∧ T s' e s'' := by
  constructor
  · intro h
    generalize hes : es ++ [e] = es' at h
    cases h with
    | nil => exact absurd hes (List.append_ne_nil_of_right_ne_nil _ (List.cons_ne_nil _ _))
    | snoc hpast hnext =>
      obtain ⟨rfl, he⟩ := List.append_inj' hes rfl
      cases he
      exact ⟨_, hpast, hnext⟩
  · rintro ⟨s', hpast, hnext⟩
    exact .snoc hpast hnext

@[simp] theorem performs_nil {T : S → E → S → Prop} {s s' : S} : Performs T s [] s' ↔ s' = s := by
  constructor
  · intro h
    generalize hes : ([] : List E) = es at h
    cases h with
    | nil => rfl
    | snoc _ _ =>
      exact absurd hes.symm (List.append_ne_nil_of_right_ne_nil _ (List.cons_ne_nil _ _))
  · rintro rfl
    exact .nil

/-- What one step may do to the abstract state: its effect, or nothing. -/
def Acts (T : S → E → S → Prop) (s : S) : Option E → S → Prop
  | none, s' => s' = s
  | some e, s' => T s e s'

/-- The effects of the threads in the order of their calls, each with its thread. -/
def effectsOf (effect : Nat → Event Reply → Option E) (moves : List (Move Reply)) :
    List (Nat × E) :=
  moves.filterMap fun m => (effect m.thread m.event).map (m.thread, ·)

section Effects

variable {effect : Nat → Event Reply → Option E} {moves : List (Move Reply)}

theorem effectsOf_append (moves' : List (Move Reply)) :
    effectsOf effect (moves ++ moves') = effectsOf effect moves ++ effectsOf effect moves' :=
  List.filterMap_append

theorem mem_effectsOf {i : Nat} {e : E} :
    (i, e) ∈ effectsOf effect moves ↔ ∃ m ∈ moves, m.thread = i ∧ effect i m.event = some e := by
  simp only [effectsOf, List.mem_filterMap, Option.map_eq_some_iff, Prod.mk.injEq]
  constructor
  · rintro ⟨m, hm, e', he, rfl, rfl⟩
    exact ⟨m, hm, rfl, he⟩
  · rintro ⟨m, hm, rfl, he⟩
    exact ⟨m, hm, e, he, rfl, rfl⟩

/-- The effects of one thread are those of its events. -/
theorem filterMap_eventsOf (i : Nat) :
    (eventsOf i moves).filterMap (effect i) =
      (effectsOf effect moves).filterMap fun e => if e.1 = i then some e.2 else none := by
  induction moves with
  | nil => rfl
  | cons m moves ih =>
    have hcons : eventsOf i (m :: moves) = eventsOf i [m] ++ eventsOf i moves :=
      eventsOf_append i [m] moves
    have hcons' : effectsOf effect ([m] ++ moves) =
        effectsOf effect [m] ++ effectsOf effect moves := effectsOf_append moves
    rw [List.singleton_append] at hcons'
    rw [hcons, hcons', List.filterMap_append, List.filterMap_append, ih]
    congr 1
    by_cases hi : m.thread = i
    · cases he : effect m.thread m.event with
      | none => simp [eventsOf, effectsOf, ← hi, he]
      | some e => simp [eventsOf, effectsOf, ← hi, he]
    · cases he : effect m.thread m.event with
      | none => simp [eventsOf, effectsOf, hi, he]
      | some e => simp [eventsOf, effectsOf, hi, he]

/-- No thread has two effects if the events of none have. -/
theorem nodup_effectsOf (h : ∀ i, ((eventsOf i moves).filterMap (effect i)).length ≤ 1) :
    ((effectsOf effect moves).map Prod.fst).Nodup := by
  rw [List.nodup_iff_count_le_one]
  intro i
  have hcount : ∀ es : List (Nat × E), (es.map Prod.fst).count i =
      (es.filterMap fun e => if e.1 = i then some e.2 else none).length := by
    intro es
    induction es with
    | nil => rfl
    | cons e es ih =>
      rw [List.map_cons, List.count_cons, ih, List.filterMap_cons]
      by_cases he : e.1 = i <;> simp [he]
  rw [hcount, ← filterMap_eventsOf]
  exact h i

end Effects

/-- Every thread keeps making calls of its own kind. -/
theorem Pool.Steps.calls {env : Environment W Reply}
    {guard : List (Move Reply) → Pool W Reply β → Move Reply → Prop} {P₀ P : Pool W Reply β}
    {moves : List (Move Reply)} (h : Pool.Steps env guard P₀ moves P) {C : Nat → Call → Prop}
    (hcalls : ∀ (i : Nat) (p : Program Reply β), P₀.threads[i]? = some p → p.Calls (C i)) :
    ∀ (i : Nat) (p : Program Reply β), P.threads[i]? = some p → p.Calls (C i) := by
  induction h with
  | nil => exact hcalls
  | snoc _ hs _ ih =>
    cases hs with
    | @mk w w' threads j c next r hthread haccept =>
      intro i p hp
      rcases getElem?_set_eq_some hp with ⟨rfl, rfl⟩ | ⟨-, hp⟩
      · exact (ih j _ hthread).2 r
      · exact ih i p hp

/-- Simulation: where every step is the effect of its call, an interleaving performs its effects. -/
theorem Pool.Steps.performs {env : Environment W Reply}
    {guard : List (Move Reply) → Pool W Reply β → Move Reply → Prop} {P₀ P : Pool W Reply β}
    {moves : List (Move Reply)} (h : Pool.Steps env guard P₀ moves P) {C : Nat → Call → Prop}
    {view : W → S} {T : S → E → S → Prop} {effect : Nat → Event Reply → Option E}
    (hcalls : ∀ (i : Nat) (p : Program Reply β), P₀.threads[i]? = some p → p.Calls (C i))
    (hstep : ∀ i w c r w', C i c → env w c r = some w' →
      Acts T (view w) (effect i ⟨c, r⟩) (view w')) :
    Performs T (view P₀.state) ((effectsOf effect moves).map Prod.snd) (view P.state) := by
  induction h with
  | nil => exact .nil
  | snoc hpast hs _ ih =>
    have hthreads := hpast.calls hcalls
    cases hs with
    | @mk w w' threads i c next r hthread haccept =>
      have hacts := hstep i w c r w' (hthreads i _ hthread).1 haccept
      rw [effectsOf_append, List.map_append]
      cases he : effect i ⟨c, r⟩ with
      | none =>
        rw [he] at hacts
        have hsame : view w' = view w := hacts
        simpa [effectsOf, he, hsame] using ih
      | some e =>
        rw [he] at hacts
        have hlast : (effectsOf effect [⟨i, ⟨c, r⟩⟩]).map Prod.snd = [e] := by
          simp [effectsOf, he]
        rw [hlast]
        exact ih.snoc hacts

open Classical in
/-- The environment that accepts the replies of a kind and has nothing to remember. -/
noncomputable def onlyReplies (R : Event Reply → Prop) : Environment Unit Reply := fun _ c r =>
  if R ⟨c, r⟩ then some () else none

theorem onlyReplies_eq_some {R : Event Reply → Prop} {c : Call} {r : Reply c} {w w' : Unit} :
    onlyReplies R w c r = some w' ↔ R ⟨c, r⟩ := by
  simp [onlyReplies]

/-- A run with replies of a kind is one against these replies. -/
theorem Runs.onlyReplies {R : Event Reply → Prop} {p : Program Reply β} {w w' : Unit}
    {tr : List (Event Reply)} {b : β} (h : Runs anyReply w p tr b w') (hR : ∀ e ∈ tr, R e) :
    Runs (onlyReplies R) w p tr b w' := by
  induction h with
  | done b w => exact .done b w
  | call _ _ ih =>
    exact .call (onlyReplies_eq_some.mpr (hR _ (List.mem_cons_self ..)))
      (ih fun e he => hR e (List.mem_cons_of_mem _ he))

/-- Every move of an interleaving is a reply that the environment gives in some state. -/
theorem Pool.Steps.possible {env : Environment W Reply}
    {guard : List (Move Reply) → Pool W Reply β → Move Reply → Prop} {P₀ P : Pool W Reply β}
    {moves : List (Move Reply)} (h : Pool.Steps env guard P₀ moves P) :
    ∀ m ∈ moves, ∃ w w', env w m.event.call m.event.reply = some w' := by
  induction h with
  | nil => exact List.forall_mem_nil _
  | snoc _ hs _ ih =>
    refine List.forall_mem_append.mpr ⟨ih, List.forall_mem_singleton.mpr ?_⟩
    cases hs with
    | mk hthread haccept => exact ⟨_, _, haccept⟩

namespace Async

variable {Ans : Call → Type} {ε σ τ α γ : Type}

/-- A body takes effect once if it returns a value of the kind `S`, and never otherwise. -/
def TakesEffect (env : Environment W (Fallible ε Ans))
    (effect : Event (Fallible ε Ans) → Option E) (S : α → Prop) (Spec : E → Prop)
    (m : Async Ans ε σ α) : Prop :=
  ∀ s w, m.wp env (fun tr out _ _ =>
    (∃ a e, out = .ok a ∧ S a ∧ tr.filterMap effect = [e] ∧ Spec e) ∨
      (∀ a, out = .ok a → ¬ S a) ∧ tr.filterMap effect = []) s w

section TakesEffect

variable {env : Environment W (Fallible ε Ans)} {effect : Event (Fallible ε Ans) → Option E}
  {S : α → Prop} {Spec : E → Prop} {K : Call → Prop}

/-- Harmless calls have no effect. -/
theorem wp_filterMap_eq_nil (hK : ∀ c r, K c → effect ⟨c, r⟩ = none) {m : Async Ans ε σ α}
    (hm : m.Calls K) (s : σ) (w : W) :
    m.wp env (fun tr _ _ _ => tr.filterMap effect = []) s w := by
  refine wp_mono (wp_calls hm s w) fun tr _ _ _ hcalls => ?_
  exact List.filterMap_eq_nil_iff.mpr fun ⟨c, r⟩ he => hK c r (hcalls _ he)

/-- A body that returns a failure at once. -/
theorem takesEffect_pure {a : α} (ha : ¬ S a) :
    (Pure.pure a : Async Ans ε σ α).TakesEffect env effect S Spec := by
  intro s w
  rw [wp_pure]
  exact .inr ⟨fun b hb => by cases hb; exact ha, rfl⟩

theorem takesEffect_throw {e : ε} :
    (throw e : Async Ans ε σ α).TakesEffect env effect S Spec := by
  intro s w
  rw [wp_throw]
  exact .inr ⟨nofun, rfl⟩

/-- Harmless calls before the effect. -/
theorem takesEffect_bind (hK : ∀ c r, K c → effect ⟨c, r⟩ = none) {m : Async Ans ε σ γ}
    {f : γ → Async Ans ε σ α} (hm : m.Calls K)
    (hf : ∀ a, (f a).TakesEffect env effect S Spec) :
    (m >>= f).TakesEffect env effect S Spec := by
  intro s w
  refine wp_bind.mpr (wp_mono (wp_filterMap_eq_nil hK hm s w) ?_)
  intro tr out s' w' hnone
  cases out with
  | error e => exact .inr ⟨nofun, hnone⟩
  | ok a =>
    refine wp_mono (hf a s' w') ?_
    intro tr' out s'' w'' h
    rw [List.filterMap_append, hnone, List.nil_append]
    exact h

/-- A call whose answer decides whether it is the effect, after which the body succeeds at once, or
the rest of the body takes effect. -/
theorem takesEffect_call {c : Call} {f : Ans c → Async Ans ε σ α}
    (herror : ∀ e, effect ⟨c, .error e⟩ = none)
    (hok : ∀ w a w', env w c (.ok a) = some w' →
      (∃ e b, effect ⟨c, .ok a⟩ = some e ∧ Spec e ∧ S b ∧ f a = Pure.pure b) ∨
        effect ⟨c, .ok a⟩ = none ∧ (f a).TakesEffect env effect S Spec) :
    ((call c : Async Ans ε σ (Ans c)) >>= f).TakesEffect env effect S Spec := by
  intro s w
  rw [wp_bind, wp_call]
  intro r w' haccept
  cases r with
  | error e =>
    refine .inr ⟨nofun, ?_⟩
    rw [List.filterMap_cons, herror]
    rfl
  | ok a =>
    rw [ends_ok]
    rcases hok w a w' haccept with ⟨e, b, he, hspec, hb, hf⟩ | ⟨hnone, hf⟩
    · rw [hf, wp_pure]
      refine .inl ⟨b, e, rfl, hb, ?_, hspec⟩
      rw [List.append_nil, List.filterMap_cons, he]
      rfl
    · refine wp_mono (hf s w') ?_
      intro tr out s' w'' h
      rw [List.singleton_append, List.filterMap_cons, hnone]
      exact h

/-- A handler that returns a failure at once. -/
theorem takesEffect_tryCatch {m : Async Ans ε σ α} {handler : ε → α}
    (hhandler : ∀ e, ¬ S (handler e)) (hm : m.TakesEffect env effect S Spec) :
    (tryCatch m fun e => Pure.pure (handler e)).TakesEffect env effect S Spec := by
  refine fun s w => wp_tryCatch.mpr (wp_mono (hm s w) ?_)
  intro tr out s' w' hout
  cases out with
  | ok a => exact hout
  | error e =>
    rw [ends_error, wp_pure, List.append_nil]
    refine .inr ⟨fun a ha => by cases ha; exact hhandler e, ?_⟩
    rcases hout with ⟨a, -, h, -⟩ | ⟨-, hnone⟩
    · cases h
    · exact hnone

/-- A finalizer of harmless calls that never raises. -/
theorem takesEffect_tryFinally (hK : ∀ c r, K c → effect ⟨c, r⟩ = none) {m : Async Ans ε σ α}
    {finalizer : Async Ans ε σ Unit} (hm : m.TakesEffect env effect S Spec)
    (hcalls : finalizer.Calls K)
    (hreturns : ∀ s w, finalizer.wp env (fun _ out _ _ => out = .ok ()) s w) :
    (tryFinally m finalizer).TakesEffect env effect S Spec := by
  refine fun s w => wp_tryFinally.mpr (wp_mono (hm s w) ?_)
  intro tr out s' w' hout
  refine wp_mono (wp_and (wp_filterMap_eq_nil hK hcalls s' w') (hreturns s' w')) ?_
  rintro tr' out' s'' w'' ⟨hnone, rfl⟩
  rw [ends_ok, List.filterMap_append, hnone, List.append_nil]
  exact hout

/-- Locals do not matter. -/
theorem takesEffect_withLocals {init : τ} {m : Async Ans ε τ α}
    (hm : m.TakesEffect env effect S Spec) :
    (withLocals init m : Async Ans ε σ α).TakesEffect env effect S Spec :=
  fun _ w => wp_withLocals.mpr (hm init w)

end TakesEffect

end Async

end Interaction
