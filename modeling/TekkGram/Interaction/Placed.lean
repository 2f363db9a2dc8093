import TekkGram.Interaction.Pool
import TekkGram.Interaction.Since

/-!
# Programs at places

A program may run at one of several places, each with its own part of the state. Its calls are then
made at that place. Without their places, its calls are those of the program itself.
-/

namespace Interaction

variable {Call : Type} {Reply : Call → Type} {β ι W : Type}

/-- The replies to calls made at places. -/
abbrev AtPlace (ι : Type) (Reply : Call → Type) : ι × Call → Type := fun c => Reply c.2

/-- The program with every call made at one place. -/
def Program.placed (place : ι) : Program Reply β → Program (AtPlace ι Reply) β
  | .done b => .done b
  | .call c next => .call (place, c) fun r => (next r).placed place

/-- The event as its own program sees it. -/
def Event.local (e : Event (AtPlace ι Reply)) : Event Reply := ⟨e.call.2, e.reply⟩

theorem Program.placed_eq_done {place : ι} {p : Program Reply β} {b : β}
    (h : p.placed place = .done b) : p = .done b := by
  cases p with
  | done b' => cases h; rfl
  | call c next => cases h

/-- A placed program makes the calls of the program. -/
theorem Program.Calls.placed {C : Call → Prop} {p : Program Reply β} (h : p.Calls C)
    (place : ι) : (p.placed place).Calls fun c => C c.2 := by
  induction p with
  | done b => trivial
  | call c next ih => exact ⟨h.1, fun r => ih r (h.2 r)⟩

/-- A path of a placed program is a path of the program. -/
theorem Follows.of_placed {place : ι} {p : Program Reply β} {q : Program (AtPlace ι Reply) β}
    {tr : List (Event (AtPlace ι Reply))} (h : Follows (p.placed place) tr q) :
    ∃ q', q = q'.placed place ∧ Follows p (tr.map Event.local) q' ∧
      ∀ e ∈ tr, e.call.1 = place := by
  generalize hp : p.placed place = p' at h
  induction h generalizing p with
  | nil p' => exact ⟨p, hp.symm, .nil p, List.forall_mem_nil _⟩
  | @call c next r tr q hrest ih =>
    cases p with
    | done b => cases hp
    | call c' next' =>
      cases hp
      obtain ⟨q', hq, hfollows, hplace⟩ := ih rfl
      exact ⟨q', hq, .call hfollows, List.forall_mem_cons.mpr ⟨rfl, hplace⟩⟩

/-- The events of one thread as its own program sees them. -/
def localEventsOf (i : Nat) (moves : List (Move (AtPlace ι Reply))) : List (Event Reply) :=
  (eventsOf i moves).map Event.local

@[simp] theorem localEventsOf_nil (i : Nat) :
    localEventsOf i ([] : List (Move (AtPlace ι Reply))) = [] := rfl

theorem localEventsOf_append (i : Nat) (xs ys : List (Move (AtPlace ι Reply))) :
    localEventsOf i (xs ++ ys) = localEventsOf i xs ++ localEventsOf i ys := by
  rw [localEventsOf, eventsOf_append, List.map_append]
  rfl

/-- One more move adds its event to its own thread. -/
theorem localEventsOf_snoc (i : Nat) (moves : List (Move (AtPlace ι Reply)))
    (m : Move (AtPlace ι Reply)) : localEventsOf i (moves ++ [m]) =
      if m.thread = i then localEventsOf i moves ++ [m.event.local] else localEventsOf i moves := by
  rw [localEventsOf_append]
  by_cases hm : m.thread = i <;> simp [localEventsOf, eventsOf, hm]

@[simp] theorem Event.local_mk {c : ι × Call} {r : AtPlace ι Reply c} :
    (⟨c, r⟩ : Event (AtPlace ι Reply)).local = ⟨c.2, r⟩ := rfl

/-- In every interleaving the calls that a placed thread has made are the beginning of a run of
its program. -/
theorem Pool.Steps.exists_local_runs {env : Environment W (AtPlace ι Reply)}
    {guard : List (Move (AtPlace ι Reply)) → Pool W (AtPlace ι Reply) β →
      Move (AtPlace ι Reply) → Prop} {P₀ P : Pool W (AtPlace ι Reply) β}
    {moves : List (Move (AtPlace ι Reply))} (h : Pool.Steps env guard P₀ moves P) {i : Nat}
    {place : ι} {p : Program Reply β} (hi : P₀.threads[i]? = some (p.placed place))
    (answer : (c : Call) → Reply c) :
    ∃ (q : Program Reply β) (tr : List (Event Reply)) (b : β),
      P.threads[i]? = some (q.placed place) ∧
      Runs anyReply () p (localEventsOf i moves ++ tr) b () ∧
      (∀ e ∈ tr, e.reply = answer e.call) ∧ (tr = [] → q = .done b) := by
  obtain ⟨q, hq, hfollows⟩ := h.follows hi
  obtain ⟨q', rfl, hlocal, -⟩ := hfollows.of_placed
  obtain ⟨tr, b, hrun, hanswers, hdone⟩ := q'.exists_runs answer
  exact ⟨q', tr, b, hq, hlocal.append_runs hrun, hanswers, hdone⟩

/-- The calls of a placed thread that has ended are a run of its program. -/
theorem Pool.Steps.local_runs {env : Environment W (AtPlace ι Reply)}
    {guard : List (Move (AtPlace ι Reply)) → Pool W (AtPlace ι Reply) β →
      Move (AtPlace ι Reply) → Prop} {P₀ P : Pool W (AtPlace ι Reply) β}
    {moves : List (Move (AtPlace ι Reply))} (h : Pool.Steps env guard P₀ moves P) {i : Nat}
    {place : ι} {p : Program Reply β} {b : β} (hi : P₀.threads[i]? = some (p.placed place))
    (hdone : P.threads[i]? = some (.done b)) :
    Runs anyReply () p (localEventsOf i moves) b () := by
  obtain ⟨q, hq, hfollows⟩ := h.follows hi
  obtain ⟨q', rfl, hlocal, -⟩ := hfollows.of_placed
  have hended : q'.placed place = .done b := Option.some.inj (hq.symm.trans hdone)
  rw [Program.placed_eq_done hended] at hlocal
  exact hlocal.runs

/-- Programs at their places, over a shared state. -/
def Pool.placed (w : W) (programs : List (ι × Program Reply β)) : Pool W (AtPlace ι Reply) β :=
  ⟨w, programs.map fun p => p.2.placed p.1⟩

/-- A move after an interleaving is a call that its program may make after the calls that it has
made before. -/
theorem Pool.Steps.allowed {env : Environment W (AtPlace ι Reply)}
    {guard : List (Move (AtPlace ι Reply)) → Pool W (AtPlace ι Reply) β →
      Move (AtPlace ι Reply) → Prop} {w : W} {programs : List (ι × Program Reply β)}
    {P P' : Pool W (AtPlace ι Reply) β} {moves : List (Move (AtPlace ι Reply))}
    {m : Move (AtPlace ι Reply)} (answer : (c : Call) → Reply c)
    {T : Nat → List (Event Reply) → Event Reply → Prop}
    (hT : ∀ (i : Nat) (p : ι × Program Reply β), programs[i]? = some p →
      ∀ tr b, Runs anyReply () p.2 tr b () → Throughout (T i) tr)
    (h : Pool.Steps env guard (.placed w programs) moves P) (hstep : Pool.Step env P m P') :
    T m.thread (localEventsOf m.thread moves) m.event.local := by
  have hnext : Pool.Steps env (fun _ _ _ => True) (.placed w programs) (moves ++ [m]) P' :=
    .snoc (h.mono fun _ _ _ _ => trivial) hstep trivial
  have hlt := hnext.thread_lt m (by simp)
  rw [Pool.placed, List.length_map] at hlt
  have hprogram : programs[m.thread]? = some programs[m.thread] := List.getElem?_eq_getElem hlt
  have hthread : (Pool.placed w programs).threads[m.thread]? =
      some (programs[m.thread].2.placed programs[m.thread].1) := by
    rw [Pool.placed, List.getElem?_map, hprogram, Option.map_some]
  obtain ⟨q, tr, b, -, hrun, -⟩ := hnext.exists_local_runs hthread answer
  have hmoves := (hT _ _ hprogram _ _ hrun).of_append
  rw [localEventsOf_snoc, if_pos rfl] at hmoves
  exact hmoves _ _ [] rfl

/-- The invariant rule for placed threads: a step may use what its program allows. -/
theorem Pool.Steps.local_invariant {env : Environment W (AtPlace ι Reply)}
    {guard : List (Move (AtPlace ι Reply)) → Pool W (AtPlace ι Reply) β →
      Move (AtPlace ι Reply) → Prop} {w : W} {programs : List (ι × Program Reply β)}
    {P : Pool W (AtPlace ι Reply) β} {moves : List (Move (AtPlace ι Reply))}
    (answer : (c : Call) → Reply c) {T : Nat → List (Event Reply) → Event Reply → Prop}
    (hT : ∀ (i : Nat) (p : ι × Program Reply β), programs[i]? = some p →
      ∀ tr b, Runs anyReply () p.2 tr b () → Throughout (T i) tr)
    (I : List (Move (AtPlace ι Reply)) → W → Prop) (hinit : I [] w)
    (hstep : ∀ moves P m w', I moves P.state → guard moves P m →
      T m.thread (localEventsOf m.thread moves) m.event.local →
      env P.state m.event.call m.event.reply = some w' → I (moves ++ [m]) w')
    (h : Pool.Steps env guard (.placed w programs) moves P) : I moves P.state := by
  induction h with
  | nil => exact hinit
  | snoc hpast hs hguard ih =>
    have hallowed := hpast.allowed answer hT hs
    cases hs with
    | mk hthread haccept => exact hstep _ _ _ _ ih hguard hallowed haccept

end Interaction
