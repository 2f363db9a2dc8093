import TekkGram.Interaction.Async
import TekkGram.Interaction.Placed

/-!
# Keys that are used once

A thread may use a key once after it has drawn the key's name. If the environment never lets a name
be drawn twice, no key is used twice, whatever the threads interleave.
-/

namespace Interaction

variable {Call K : Type} {Reply : Call → Type}

/-- The name of the key has been drawn, and the key has not been used since. -/
def Unused (uses : Call → Option K) (Draws : Event Reply → K → Prop) (k : K)
    (past : List (Event Reply)) : Prop :=
  Since (fun _ e => Draws e k) (fun e => uses e.call ≠ some k) past

/-- What the event uses has been drawn and not been used since. -/
def FreshUse (uses : Call → Option K) (Draws : Event Reply → K → Prop)
    (past : List (Event Reply)) (e : Event Reply) : Prop :=
  ∀ k, uses e.call = some k → Unused uses Draws k past

/-- The keys that these events use, in their order. -/
def usedKeys (uses : Call → Option K) (tr : List (Event Reply)) : List K :=
  tr.filterMap fun e => uses e.call

section Traces

variable {uses : Call → Option K} {Draws : Event Reply → K → Prop} {k : K} {c : Call}
  {r : Reply c} {tr tr' : List (Event Reply)} {keys : List K}

/-- Nothing that came before matters. -/
theorem Unused.prepend (h : Unused uses Draws k tr') : Unused uses Draws k (tr ++ tr') := by
  obtain ⟨before, e, after, rfl, hdraws, hafter⟩ := h
  exact ⟨tr ++ before, e, after, (List.append_assoc ..).symm, hdraws, hafter⟩

theorem Throughout.append_freshUse (h : Throughout (FreshUse uses Draws) tr)
    (h' : Throughout (FreshUse uses Draws) tr') : Throughout (FreshUse uses Draws) (tr ++ tr') :=
  h.append h' fun _ _ hfresh k hk => (hfresh k hk).prepend

/-- Events that use nothing use nothing again. -/
theorem throughout_freshUse_of_forall (h : ∀ e ∈ tr, uses e.call = none) :
    Throughout (FreshUse uses Draws) tr :=
  .of_forall fun e he _ k hk => by cases (h e he).symm.trans hk

theorem usedKeys_append : usedKeys uses (tr ++ tr') = usedKeys uses tr ++ usedKeys uses tr' :=
  List.filterMap_append

theorem usedKeys_cons {e : Event Reply} (h : uses e.call = some k) :
    usedKeys uses (e :: tr) = k :: usedKeys uses tr := List.filterMap_cons_some h

theorem usedKeys_eq_nil (h : ∀ e ∈ tr, uses e.call = none) : usedKeys uses tr = [] :=
  List.filterMap_eq_nil_iff.mpr h

/-- After a draw each of the drawn keys may be used once. -/
theorem throughout_freshUse_draw (hc : uses c = none)
    (hused : (usedKeys uses tr).Sublist keys) (hnodup : keys.Nodup)
    (hdraws : ∀ k ∈ keys, Draws ⟨c, r⟩ k) : Throughout (FreshUse uses Draws) (⟨c, r⟩ :: tr) := by
  rw [throughout_cons]
  refine ⟨fun k hk => absurd (hc.symm.trans hk) (Option.some_ne_none k).symm, ?_⟩
  rintro before e after rfl k hk
  have hkeys : usedKeys uses (before ++ e :: after) =
      usedKeys uses before ++ k :: usedKeys uses after := by
    rw [usedKeys_append, usedKeys_cons hk]
  rw [hkeys] at hused
  -- the key is drawn with the others, and it is no other key that has been used before
  have hk' : k ∈ keys := hused.subset (by simp)
  have hfirst : k ∉ usedKeys uses before := by
    have hsplit := hnodup.sublist hused
    rw [List.nodup_append] at hsplit
    exact fun hmem => hsplit.2.2 k hmem k List.mem_cons_self rfl
  refine ⟨[], ⟨c, r⟩, before, rfl, hdraws k hk', fun e' he' hused' => hfirst ?_⟩
  exact List.mem_filterMap.mpr ⟨e', he', hused'⟩

end Traces

section Programs

variable {α β : Type} {uses : Call → Option K} {Draws : Event Reply → K → Prop}
  {keys keys' : List K}

/-- Whatever the replies, every use is a fresh one. -/
def Program.UsesFresh (uses : Call → Option K) (Draws : Event Reply → K → Prop)
    (p : Program Reply β) : Prop :=
  ∀ tr b, Runs anyReply () p tr b () → Throughout (FreshUse uses Draws) tr

/-- Whatever the replies, only these keys are used, in this order and no more often. -/
def Program.UsesAmong (uses : Call → Option K) (keys : List K) (p : Program Reply β) : Prop :=
  ∀ tr b, Runs anyReply () p tr b () → (usedKeys uses tr).Sublist keys

theorem Program.Calls.usesFresh {p : Program Reply β} (h : p.Calls fun c => uses c = none) :
    p.UsesFresh uses Draws := fun _ _ hr => throughout_freshUse_of_forall (hr.trace_calls h)

theorem Program.Calls.usesAmong {p : Program Reply β} (h : p.Calls fun c => uses c = none) :
    p.UsesAmong uses keys := by
  intro tr b hr
  rw [usedKeys_eq_nil (hr.trace_calls h)]
  exact List.nil_sublist keys

theorem Program.UsesFresh.bind {p : Program Reply α} {f : α → Program Reply β}
    (hp : p.UsesFresh uses Draws) (hf : ∀ a, (f a).UsesFresh uses Draws) :
    (p.bind f).UsesFresh uses Draws := by
  intro tr b hr
  obtain ⟨a, _, tr₁, tr₂, hr₁, hr₂, rfl⟩ := runs_bind.mp hr
  exact (hp tr₁ a hr₁).append_freshUse (hf a tr₂ b hr₂)

theorem Program.UsesAmong.bind {p : Program Reply α} {f : α → Program Reply β}
    (hp : p.UsesAmong uses keys) (hf : ∀ a, (f a).UsesAmong uses keys') :
    (p.bind f).UsesAmong uses (keys ++ keys') := by
  intro tr b hr
  obtain ⟨a, _, tr₁, tr₂, hr₁, hr₂, rfl⟩ := runs_bind.mp hr
  rw [usedKeys_append]
  exact (hp tr₁ a hr₁).append (hf a tr₂ b hr₂)

/-- A second part that uses nothing. -/
theorem Program.UsesAmong.bind_calls {p : Program Reply α} {f : α → Program Reply β}
    (hp : p.UsesAmong uses keys) (hf : ∀ a, (f a).Calls fun c => uses c = none) :
    (p.bind f).UsesAmong uses keys := by
  have hall : (p.bind f).UsesAmong uses (keys ++ []) := hp.bind fun a => (hf a).usesAmong
  rwa [List.append_nil] at hall

theorem Program.usesAmong_done {b : β} : (Program.done b : Program Reply β).UsesAmong uses keys :=
  Program.Calls.usesAmong trivial

/-- A draw, and one use at most of each of the drawn keys. -/
theorem Program.usesFresh_draw {c : Call} {next : Reply c → Program Reply β} (hc : uses c = none)
    (hnext : ∀ r, ∃ keys : List K, keys.Nodup ∧ (∀ k ∈ keys, Draws ⟨c, r⟩ k) ∧
      (next r).UsesAmong uses keys) : (Program.call c next).UsesFresh uses Draws := by
  intro tr b hr
  obtain ⟨r, _, rest, -, rfl, hrest⟩ := runs_call.mp hr
  obtain ⟨keys, hnodup, hdraws, hamong⟩ := hnext r
  exact throughout_freshUse_draw hc (hamong rest b hrest) hnodup hdraws

end Programs

/-- The environment never lets a name be drawn that is taken, and a drawn name is taken from then
on. -/
structure DrawsOnce {W ι : Type} (env : Environment W (AtPlace ι Reply))
    (Draws : Event Reply → K → Prop) (Taken : W → K → Prop) : Prop where
  kept : ∀ {w c r w'}, env w c r = some w' → ∀ k, Taken w k → Taken w' k
  drawn : ∀ {w c r w'}, env w c r = some w' → ∀ k,
    Draws (Event.local (⟨c, r⟩ : Event (AtPlace ι Reply))) k → ¬ Taken w k ∧ Taken w' k

section Pools

variable {W ι β : Type} {env : Environment W (AtPlace ι Reply)} {uses : Call → Option K}
  {Draws : Event Reply → K → Prop} {Taken : W → K → Prop} {w₀ w w' : W}
  {moves : List (Move (AtPlace ι Reply))} {m : Move (AtPlace ι Reply)} {i : Nat} {k : K}

/-- What holds between the moves: a key that a thread may use is one that no move has used, and its
name has been drawn by that thread only. -/
structure Names (uses : Call → Option K) (Draws : Event Reply → K → Prop) (Taken : W → K → Prop)
    (w₀ : W) (moves : List (Move (AtPlace ι Reply))) (w : W) : Prop where
  taken : ∀ k, Taken w₀ k → Taken w k
  used : ∀ m ∈ moves, ∀ k, uses m.event.local.call = some k → Taken w k
  unused : ∀ i k, Unused uses Draws k (localEventsOf i moves) → Taken w k ∧ ¬ Taken w₀ k ∧
    ∀ m ∈ moves, uses m.event.local.call ≠ some k
  owner : ∀ i j k, Unused uses Draws k (localEventsOf i moves) →
    Unused uses Draws k (localEventsOf j moves) → i = j

/-- A key that is unused after one more move has been drawn by it, or was unused before. -/
theorem Unused.of_snoc (h : Unused uses Draws k (localEventsOf i (moves ++ [m]))) :
    (Draws m.event.local k ∧ m.thread = i) ∨ (Unused uses Draws k (localEventsOf i moves) ∧
      (m.thread = i → uses m.event.local.call ≠ some k)) := by
  rw [localEventsOf_snoc] at h
  by_cases hi : m.thread = i
  · rw [if_pos hi] at h
    rcases since_snoc.mp h with hdraws | ⟨hunused, hne⟩
    · exact .inl ⟨hdraws, hi⟩
    · exact .inr ⟨hunused, fun _ => hne⟩
  · rw [if_neg hi] at h
    exact .inr ⟨h, fun hi' => absurd hi' hi⟩

/-- One move keeps the names apart. -/
theorem Names.step (h : Names uses Draws Taken w₀ moves w) (hnames : DrawsOnce env Draws Taken)
    (hstep : env w m.event.call m.event.reply = some w')
    (hfresh : FreshUse uses Draws (localEventsOf m.thread moves) m.event.local) :
    Names uses Draws Taken w₀ (moves ++ [m]) w' := by
  have hkept := hnames.kept hstep
  have hdrawn := hnames.drawn hstep
  refine ⟨fun k hk => hkept k (h.taken k hk), ?_, fun i k hk => ?_, fun i j k hi hj => ?_⟩
  · refine List.forall_mem_append.mpr ⟨fun m' hm' k hk => hkept k (h.used m' hm' k hk), ?_⟩
    exact List.forall_mem_singleton.mpr fun k hk => hkept k (h.unused _ k (hfresh k hk)).1
  · rcases hk.of_snoc with ⟨hdraws, -⟩ | ⟨hunused, hne⟩
    · obtain ⟨hnew, htaken⟩ := hdrawn k hdraws
      refine ⟨htaken, fun hinit => hnew (h.taken k hinit), List.forall_mem_append.mpr ⟨?_, ?_⟩⟩
      · exact fun m' hm' hused => hnew (h.used m' hm' k hused)
      · exact List.forall_mem_singleton.mpr fun hused => hnew (h.unused _ k (hfresh k hused)).1
    · obtain ⟨htaken, hinit, hall⟩ := h.unused i k hunused
      refine ⟨hkept k htaken, hinit, List.forall_mem_append.mpr ⟨hall, ?_⟩⟩
      refine List.forall_mem_singleton.mpr fun hused => ?_
      exact hne (h.owner _ _ k (hfresh k hused) hunused) hused
  · rcases hi.of_snoc with ⟨hdraws, rfl⟩ | ⟨hi, -⟩ <;>
      rcases hj.of_snoc with ⟨hdraws', hj⟩ | ⟨hj, -⟩
    · exact hj
    · exact absurd (h.unused j k hj).1 (hdrawn k hdraws).1
    · exact absurd (h.unused i k hi).1 (hdrawn k hdraws').1
    · exact h.owner i j k hi hj

/-- What a move uses has not been used by any move before, and was not taken in the beginning. -/
theorem Pool.Steps.not_used_before
    {guard : List (Move (AtPlace ι Reply)) → Pool W (AtPlace ι Reply) β →
      Move (AtPlace ι Reply) → Prop} {programs : List (ι × Program Reply β)}
    {P P' : Pool W (AtPlace ι Reply) β} (answer : (c : Call) → Reply c)
    (hnames : DrawsOnce env Draws Taken) (hprograms : ∀ p ∈ programs, p.2.UsesFresh uses Draws)
    (h : Pool.Steps env guard (.placed w₀ programs) moves P) (hstep : Pool.Step env P m P')
    (hk : uses m.event.local.call = some k) :
    ¬ Taken w₀ k ∧ ∀ m ∈ moves, uses m.event.local.call ≠ some k := by
  have hfresh : ∀ (i : Nat) (p : ι × Program Reply β), programs[i]? = some p →
      ∀ tr b, Runs anyReply () p.2 tr b () → Throughout (FreshUse uses Draws) tr :=
    fun i p hp => hprograms p (List.mem_of_getElem? hp)
  have hinv : Names uses Draws Taken w₀ moves P.state := by
    refine h.local_invariant answer hfresh (Names uses Draws Taken w₀) ?_ ?_
    · exact ⟨fun _ hk => hk, fun m hm => absurd hm List.not_mem_nil, fun i k hk =>
        absurd hk not_since_nil, fun i j k hk => absurd hk not_since_nil⟩
    · exact fun _ P m w' hi _ hallowed haccept => hi.step hnames haccept hallowed
  have hallowed := h.allowed answer hfresh hstep
  exact (hinv.unused m.thread k (hallowed k hk)).2

end Pools

namespace Async

variable {Ans : Call → Type} {ε σ τ α β : Type} {uses : Call → Option K}
  {Draws : Event (Fallible ε Ans) → K → Prop} {keys keys' : List K}

/-- Whatever the replies, every use of the body is a fresh one. -/
def UsesFresh (uses : Call → Option K) (Draws : Event (Fallible ε Ans) → K → Prop)
    (m : Async Ans ε σ α) : Prop := ∀ s, (m s).UsesFresh uses Draws

/-- Whatever the replies, the body uses only these keys, in this order and no more often. -/
def UsesAmong (uses : Call → Option K) (keys : List K) (m : Async Ans ε σ α) : Prop :=
  ∀ s, (m s).UsesAmong uses keys

theorem Calls.usesFresh {m : Async Ans ε σ α} (h : m.Calls fun c => uses c = none) :
    m.UsesFresh uses Draws := fun s => (h s).usesFresh

theorem Calls.usesAmong {m : Async Ans ε σ α} (h : m.Calls fun c => uses c = none) :
    m.UsesAmong uses keys := fun s => (h s).usesAmong

theorem usesFresh_pure {a : α} : (Pure.pure a : Async Ans ε σ α).UsesFresh uses Draws :=
  calls_pure.usesFresh

theorem usesFresh_bind {m : Async Ans ε σ α} {f : α → Async Ans ε σ β}
    (hm : m.UsesFresh uses Draws) (hf : ∀ a, (f a).UsesFresh uses Draws) :
    (m >>= f).UsesFresh uses Draws := by
  intro s
  refine (hm s).bind ?_
  rintro ⟨out, s'⟩
  cases out with
  | ok a => exact hf a s'
  | error e => exact Program.Calls.usesFresh trivial

theorem usesFresh_tryCatch {m : Async Ans ε σ α} {handler : ε → Async Ans ε σ α}
    (hm : m.UsesFresh uses Draws) (hh : ∀ e, (handler e).UsesFresh uses Draws) :
    (tryCatch m handler).UsesFresh uses Draws := by
  intro s
  refine (hm s).bind ?_
  rintro ⟨out, s'⟩
  cases out with
  | ok a => exact Program.Calls.usesFresh trivial
  | error e => exact hh e s'

theorem usesFresh_tryFinally {m : Async Ans ε σ α} {finalizer : Async Ans ε σ Unit}
    (hm : m.UsesFresh uses Draws) (hf : finalizer.UsesFresh uses Draws) :
    (tryFinally m finalizer).UsesFresh uses Draws := by
  intro s
  refine (hm s).bind ?_
  rintro ⟨out, s'⟩
  refine (hf s').bind ?_
  rintro ⟨out', s''⟩
  cases out' <;> exact Program.Calls.usesFresh trivial

theorem usesFresh_withLocals {init : τ} {m : Async Ans ε τ α} (hm : m.UsesFresh uses Draws) :
    (withLocals init m : Async Ans ε σ α).UsesFresh uses Draws :=
  fun _ => (hm init).bind fun _ => Program.Calls.usesFresh trivial

theorem usesFresh_forEach {xs : List β} {f : β → Async Ans ε σ Unit}
    (hf : ∀ x ∈ xs, (f x).UsesFresh uses Draws) : (forEach xs f).UsesFresh uses Draws := by
  induction xs with
  | nil => exact usesFresh_pure
  | cons x xs ih =>
    exact usesFresh_bind (hf x (List.mem_cons_self ..)) fun _ =>
      ih fun y hy => hf y (List.mem_cons_of_mem _ hy)

theorem usesAmong_call {c : Call} {k : K} (h : uses c = some k) :
    (call c : Async Ans ε σ (Ans c)).UsesAmong uses [k] := by
  intro s tr b hr
  obtain ⟨r, _, rest, -, rfl, hrest⟩ := runs_call.mp hr
  obtain ⟨rfl, -, -⟩ := runs_done.mp hrest
  rw [usedKeys_cons h]
  exact List.Sublist.refl _

theorem usesAmong_bind {m : Async Ans ε σ α} {f : α → Async Ans ε σ β}
    (hm : m.UsesAmong uses keys) (hf : ∀ a, (f a).UsesAmong uses keys') :
    (m >>= f).UsesAmong uses (keys ++ keys') := by
  intro s
  refine (hm s).bind ?_
  rintro ⟨out, s'⟩
  cases out with
  | ok a => exact hf a s'
  | error e => exact Program.usesAmong_done

/-- A first call that uses a key. -/
theorem usesAmong_call_bind {c : Call} {k : K} {f : Ans c → Async Ans ε σ β}
    (h : uses c = some k) (hf : ∀ a, (f a).UsesAmong uses keys) :
    (call c >>= f).UsesAmong uses (k :: keys) := usesAmong_bind (usesAmong_call h) hf

/-- A first part that uses nothing. -/
theorem usesAmong_bind_calls {m : Async Ans ε σ α} {f : α → Async Ans ε σ β}
    (hm : m.Calls fun c => uses c = none) (hf : ∀ a, (f a).UsesAmong uses keys) :
    (m >>= f).UsesAmong uses keys := by
  have hnone : m.UsesAmong uses [] := hm.usesAmong
  exact usesAmong_bind hnone hf

theorem usesAmong_tryCatch {m : Async Ans ε σ α} {handler : ε → Async Ans ε σ α}
    (hm : m.UsesAmong uses keys) (hh : ∀ e, (handler e).Calls fun c => uses c = none) :
    (tryCatch m handler).UsesAmong uses keys := by
  intro s
  refine (hm s).bind_calls ?_
  rintro ⟨out, s'⟩
  cases out with
  | ok a => trivial
  | error e => exact hh e s'

theorem usesAmong_tryFinally {m : Async Ans ε σ α} {finalizer : Async Ans ε σ Unit}
    (hm : m.UsesAmong uses keys) (hf : finalizer.Calls fun c => uses c = none) :
    (tryFinally m finalizer).UsesAmong uses keys := by
  intro s
  refine (hm s).bind_calls ?_
  rintro ⟨out, s'⟩
  refine (hf s').bind ?_
  rintro ⟨out', s''⟩
  cases out' <;> trivial

/-- A draw, and one use at most of each of the drawn keys. -/
theorem usesFresh_draw {c : Call} {f : Ans c → Async Ans ε σ β} (hc : uses c = none)
    (hf : ∀ a, ∃ keys : List K, keys.Nodup ∧ (∀ k ∈ keys, Draws ⟨c, .ok a⟩ k) ∧
      (f a).UsesAmong uses keys) : (call c >>= f).UsesFresh uses Draws := by
  intro s
  refine Program.usesFresh_draw hc fun r => ?_
  cases r with
  | ok a =>
    obtain ⟨keys, hnodup, hdraws, hamong⟩ := hf a
    exact ⟨keys, hnodup, hdraws, hamong s⟩
  | error e =>
    exact ⟨[], List.nodup_nil, List.forall_mem_nil _, Program.usesAmong_done⟩

end Async

end Interaction
