import TekkGram.Interaction.Program

/-!
# Interleavings of concurrent programs

A pool holds the remaining programs of its threads over one shared state. A step
lets any one thread make its next call, so that the calls of different threads
interleave in every order. The calls of one thread, read off the interleaving, are a
path of its own program, whatever the other threads did to the shared state.
-/

namespace Interaction

variable {Call : Type} {Reply : Call → Type} {β W : Type}

/-- Threads over a shared state; each thread is its remaining program. -/
structure Pool (W : Type) (Reply : Call → Type) (β : Type) where
  state : W
  threads : List (Program Reply β)

/-- A label names the thread that moved and what it was replied. -/
structure Move (Reply : Call → Type) where
  thread : Nat
  event : Event Reply

/-- One thread makes its next call. -/
inductive Pool.Step (env : Environment W Reply) :
    Pool W Reply β → Move Reply → Pool W Reply β → Prop
  | mk {w w' : W} {threads : List (Program Reply β)} {i : Nat} {c : Call}
      {next : Reply c → Program Reply β} {r : Reply c}
      (hthread : threads[i]? = some (.call c next)) (haccept : env w c r = some w') :
      Pool.Step env ⟨w, threads⟩ ⟨i, ⟨c, r⟩⟩ ⟨w', threads.set i (next r)⟩

/-- Interleavings in which every step meets the guard, given the moves and the pool before it. -/
inductive Pool.Steps (env : Environment W Reply)
    (guard : List (Move Reply) → Pool W Reply β → Move Reply → Prop) (P₀ : Pool W Reply β) :
    List (Move Reply) → Pool W Reply β → Prop
  | nil : Pool.Steps env guard P₀ [] P₀
  | snoc {moves : List (Move Reply)} {P P' : Pool W Reply β} {m : Move Reply}
      (hpast : Pool.Steps env guard P₀ moves P) (hstep : Pool.Step env P m P')
      (hguard : guard moves P m) : Pool.Steps env guard P₀ (moves ++ [m]) P'

/-- Steps that meet a guard meet every weaker one. -/
theorem Pool.Steps.mono {env : Environment W Reply}
    {guard guard' : List (Move Reply) → Pool W Reply β → Move Reply → Prop}
    {P₀ P : Pool W Reply β} {moves : List (Move Reply)}
    (hguard : ∀ moves P m, guard moves P m → guard' moves P m)
    (h : Pool.Steps env guard P₀ moves P) : Pool.Steps env guard' P₀ moves P := by
  induction h with
  | nil => exact .nil
  | snoc hpast hs hg ih => exact .snoc ih hs (hguard _ _ _ hg)

/-- What holds initially and is kept by every guarded step holds in every reached pool. -/
theorem Pool.Steps.invariant {env : Environment W Reply}
    {guard : List (Move Reply) → Pool W Reply β → Move Reply → Prop} {P₀ P : Pool W Reply β}
    {moves : List (Move Reply)} (h : Pool.Steps env guard P₀ moves P)
    (I : List (Move Reply) → Pool W Reply β → Prop) (hinit : I [] P₀)
    (hstep : ∀ moves P m P', I moves P → guard moves P m → Pool.Step env P m P' →
      I (moves ++ [m]) P') : I moves P := by
  induction h with
  | nil => exact hinit
  | snoc hpast hs hguard ih => exact hstep _ _ _ _ ih hguard hs

/-- Steps neither start nor forget a thread. -/
theorem Pool.Steps.length_threads {env : Environment W Reply}
    {guard : List (Move Reply) → Pool W Reply β → Move Reply → Prop} {P₀ P : Pool W Reply β}
    {moves : List (Move Reply)} (h : Pool.Steps env guard P₀ moves P) :
    P.threads.length = P₀.threads.length := by
  induction h with
  | nil => rfl
  | snoc hpast hs hguard ih =>
    cases hs with
    | mk hthread haccept => simpa only [List.length_set] using ih

/-- Only threads of the pool move. -/
theorem Pool.Steps.thread_lt {env : Environment W Reply}
    {guard : List (Move Reply) → Pool W Reply β → Move Reply → Prop} {P₀ P : Pool W Reply β}
    {moves : List (Move Reply)} (h : Pool.Steps env guard P₀ moves P) :
    ∀ m ∈ moves, m.thread < P₀.threads.length := by
  induction h with
  | nil => simp
  | snoc hpast hs hguard ih =>
    refine List.forall_mem_append.mpr ⟨ih, List.forall_mem_singleton.mpr ?_⟩
    rw [← hpast.length_threads]
    cases hs with
    | mk hthread haccept => exact (List.getElem?_eq_some_iff.mp hthread).1

/-- Frame rule: what every call of the threads keeps, every interleaving keeps. -/
theorem Pool.Steps.frame {env : Environment W Reply}
    {guard : List (Move Reply) → Pool W Reply β → Move Reply → Prop} {P₀ P : Pool W Reply β}
    {moves : List (Move Reply)} (h : Pool.Steps env guard P₀ moves P) (C : Call → Prop)
    (I : List (Move Reply) → W → Prop) (hcalls : ∀ p ∈ P₀.threads, p.Calls C)
    (hinit : I [] P₀.state)
    (hstep : ∀ moves w m w', C m.event.call → env w m.event.call m.event.reply = some w' →
      I moves w → I (moves ++ [m]) w') : I moves P.state := by
  have hboth : (∀ p ∈ P.threads, p.Calls C) ∧ I moves P.state := by
    induction h with
    | nil => exact ⟨hcalls, hinit⟩
    | snoc hpast hs hguard ih =>
      obtain ⟨hthreads, hi⟩ := ih
      cases hs with
      | @mk w w' threads i c next r hthread haccept =>
        have hcall := hthreads _ (List.mem_of_getElem? hthread)
        refine ⟨fun p hp => ?_, hstep _ w ⟨i, ⟨c, r⟩⟩ w' hcall.1 haccept hi⟩
        rcases List.mem_or_eq_of_mem_set hp with hp | rfl
        · exact hthreads p hp
        · exact hcall.2 r
  exact hboth.2

/-- Let the threads of a schedule move one after another, with replies picked by a strategy
from the state and the number of moves made so far; refused replies, moves that fail the check
and moves of finished threads stop the execution. -/
def Pool.exec (env : Environment W Reply) (answer : Nat → W → (c : Call) → Reply c)
    (check : Pool W Reply β → Move Reply → Bool) (schedule : List Nat)
    (moves : List (Move Reply)) (P : Pool W Reply β) :
    Option (List (Move Reply) × Pool W Reply β) :=
  match schedule with
  | [] => some (moves, P)
  | i :: schedule =>
    match P.threads[i]? with
    | some (.call c next) =>
      let r := answer moves.length P.state c
      match env P.state c r with
      | none => none
      | some w =>
        if check P ⟨i, ⟨c, r⟩⟩ then
          Pool.exec env answer check schedule (moves ++ [⟨i, ⟨c, r⟩⟩]) ⟨w, P.threads.set i (next r)⟩
        else none
    | _ => none

/-- An execution of a schedule is an interleaving, when its checks imply the guard in every pool
that is reached. -/
theorem Pool.exec_steps {env : Environment W Reply}
    {answer : Nat → W → (c : Call) → Reply c} {check : Pool W Reply β → Move Reply → Bool}
    {guard : List (Move Reply) → Pool W Reply β → Move Reply → Prop} {P₀ : Pool W Reply β}
    (hcheck : ∀ moves P m, Pool.Steps env guard P₀ moves P → check P m = true → guard moves P m)
    {schedule : List Nat} {P P' : Pool W Reply β} {moves moves' : List (Move Reply)}
    (hpast : Pool.Steps env guard P₀ moves P)
    (h : Pool.exec env answer check schedule moves P = some (moves', P')) :
    Pool.Steps env guard P₀ moves' P' := by
  induction schedule generalizing moves P with
  | nil =>
    simp only [Pool.exec, Option.some.injEq, Prod.mk.injEq] at h
    obtain ⟨rfl, rfl⟩ := h
    exact hpast
  | cons i schedule ih =>
    simp only [Pool.exec] at h
    split at h
    · rename_i c next hthread
      split at h
      · cases h
      · rename_i w haccept
        split at h
        · rename_i hc
          exact ih (.snoc hpast (.mk hthread haccept) (hcheck _ _ _ hpast hc)) h
        · cases h
    · cases h

/-- An execution of a schedule that ends in a tested pool is an interleaving to that pool. -/
theorem Pool.exec_any_of_steps {env : Environment W Reply}
    {answer : Nat → W → (c : Call) → Reply c} {check : Pool W Reply β → Move Reply → Bool}
    {guard : List (Move Reply) → Pool W Reply β → Move Reply → Prop} {P₀ : Pool W Reply β}
    (hcheck : ∀ moves P m, Pool.Steps env guard P₀ moves P → check P m = true → guard moves P m)
    {schedule : List Nat} {test : List (Move Reply) × Pool W Reply β → Bool}
    (h : (Pool.exec env answer check schedule [] P₀).any test = true) :
    ∃ moves P, Pool.Steps env guard P₀ moves P ∧ test (moves, P) = true := by
  obtain ⟨⟨moves, P⟩, he, htest⟩ := (Option.any_eq_true _ _).mp h
  exact ⟨moves, P, Pool.exec_steps hcheck .nil he, htest⟩

/-- The same for checks that imply the guard anywhere. -/
theorem Pool.exec_any {env : Environment W Reply}
    {answer : Nat → W → (c : Call) → Reply c} {check : Pool W Reply β → Move Reply → Bool}
    {guard : List (Move Reply) → Pool W Reply β → Move Reply → Prop}
    (hcheck : ∀ moves P m, check P m = true → guard moves P m) {schedule : List Nat}
    {P₀ : Pool W Reply β} {test : List (Move Reply) × Pool W Reply β → Bool}
    (h : (Pool.exec env answer check schedule [] P₀).any test = true) :
    ∃ moves P, Pool.Steps env guard P₀ moves P ∧ test (moves, P) = true :=
  Pool.exec_any_of_steps (fun moves P m _ => hcheck moves P m) h

/-- A path of a program: replies that lead from it to a remaining program. -/
inductive Follows : Program Reply β → List (Event Reply) → Program Reply β → Prop
  | nil (p : Program Reply β) : Follows p [] p
  | call {c : Call} {next : Reply c → Program Reply β} {r : Reply c}
      {tr : List (Event Reply)} {p : Program Reply β} (hrest : Follows (next r) tr p) :
      Follows (.call c next) (⟨c, r⟩ :: tr) p

/-- A path is extended by one more reply. -/
theorem Follows.snoc {p : Program Reply β} {tr : List (Event Reply)} {c : Call}
    {next : Reply c → Program Reply β} (h : Follows p tr (.call c next)) (r : Reply c) :
    Follows p (tr ++ [⟨c, r⟩]) (next r) := by
  generalize hq : Program.call c next = q at h
  induction h with
  | nil p =>
    subst hq
    exact .call (.nil _)
  | call hrest ih => exact .call (ih hq)

/-- The environment that accepts every reply and has nothing to remember. -/
def anyReply : Environment Unit Reply := fun _ _ _ => some ()

/-- A path to a result is a run against arbitrary replies. -/
theorem Follows.runs {p : Program Reply β} {tr : List (Event Reply)} {b : β}
    (h : Follows p tr (.done b)) : Runs anyReply () p tr b () := by
  generalize hq : Program.done b = q at h
  induction h with
  | nil p =>
    subst hq
    exact .done _ _
  | call hrest ih => exact .call rfl (ih hq)

/-- A path is the beginning of every run of what it leads to. -/
theorem Follows.append_runs {p q : Program Reply β} {tr tr' : List (Event Reply)} {b : β}
    (h : Follows p tr q) (hrest : Runs anyReply () q tr' b ()) :
    Runs anyReply () p (tr ++ tr') b () := by
  induction h with
  | nil p => exact hrest
  | call _ ih => exact .call rfl (ih hrest)

/-- A program ends when all its calls are answered by a given function. -/
theorem Program.exists_runs (answer : (c : Call) → Reply c) (p : Program Reply β) :
    ∃ tr b, Runs anyReply () p tr b () ∧ (∀ e ∈ tr, e.reply = answer e.call) ∧
      (tr = [] → p = .done b) := by
  induction p with
  | done b => exact ⟨[], b, .done b (), List.forall_mem_nil _, fun _ => rfl⟩
  | call c next ih =>
    obtain ⟨tr, b, hrun, hanswers, -⟩ := ih (answer c)
    exact ⟨⟨c, answer c⟩ :: tr, b, .call rfl hrun, List.forall_mem_cons.mpr ⟨rfl, hanswers⟩,
      fun h => absurd h (List.cons_ne_nil _ _)⟩

/-- An entry of a list, one of whose entries has been replaced. -/
theorem getElem?_set_eq_some {γ : Type} {xs : List γ} {k j : Nat} {x y : γ}
    (h : (xs.set k x)[j]? = some y) : (k = j ∧ x = y) ∨ (k ≠ j ∧ xs[j]? = some y) := by
  by_cases hkj : k = j
  · subst hkj
    rw [List.getElem?_set_self'] at h
    obtain ⟨-, -, rfl⟩ := Option.map_eq_some_iff.mp h
    exact .inl ⟨rfl, rfl⟩
  · rw [List.getElem?_set_ne hkj] at h
    exact .inr ⟨hkj, h⟩

/-- The events of one thread, in their order. -/
def eventsOf (i : Nat) (moves : List (Move Reply)) : List (Event Reply) :=
  moves.filterMap fun m => if m.thread = i then some m.event else none

@[simp] theorem eventsOf_nil (i : Nat) : eventsOf i ([] : List (Move Reply)) = [] := rfl

theorem eventsOf_append (i : Nat) (xs ys : List (Move Reply)) :
    eventsOf i (xs ++ ys) = eventsOf i xs ++ eventsOf i ys := List.filterMap_append

theorem mem_eventsOf {i : Nat} {moves : List (Move Reply)} {e : Event Reply} :
    e ∈ eventsOf i moves ↔ ∃ m ∈ moves, m.thread = i ∧ m.event = e := by
  simp [eventsOf]

/-- What is no thread of the pool has no events. -/
theorem Pool.Steps.eventsOf_eq_nil {env : Environment W Reply}
    {guard : List (Move Reply) → Pool W Reply β → Move Reply → Prop} {P₀ P : Pool W Reply β}
    {moves : List (Move Reply)} (h : Pool.Steps env guard P₀ moves P) {i : Nat}
    (hi : P₀.threads.length ≤ i) : eventsOf i moves = [] := by
  refine List.filterMap_eq_nil_iff.mpr fun m hm => if_neg ?_
  have hlt := h.thread_lt m hm
  omega

/-- In every interleaving each thread follows its own program. -/
theorem Pool.Steps.follows {env : Environment W Reply}
    {guard : List (Move Reply) → Pool W Reply β → Move Reply → Prop} {P₀ P : Pool W Reply β}
    {moves : List (Move Reply)} (h : Pool.Steps env guard P₀ moves P) {i : Nat}
    {p : Program Reply β} (hi : P₀.threads[i]? = some p) :
    ∃ q, P.threads[i]? = some q ∧ Follows p (eventsOf i moves) q := by
  induction h with
  | nil => exact ⟨p, hi, .nil p⟩
  | snoc hpast hs hguard ih =>
    obtain ⟨q, hq, hf⟩ := ih
    cases hs with
    | @mk w w' threads j c next r hthread haccept =>
      rw [eventsOf_append]
      by_cases hj : j = i
      · subst hj
        have he : q = .call c next := Option.some.inj (hq.symm.trans hthread)
        subst he
        have hlt : j < threads.length := (List.getElem?_eq_some_iff.mp hthread).1
        refine ⟨next r, by simp [hlt], ?_⟩
        simpa [eventsOf] using hf.snoc r
      · refine ⟨q, by simpa [List.getElem?_set_ne hj] using hq, ?_⟩
        simpa [eventsOf, hj] using hf

end Interaction
