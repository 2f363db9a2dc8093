import TekkGram.Loading.LastOff
import TekkGram.Model.Working

/-!
# The loading flag while work is in progress

Each notifier stores one flag for all of its operations that are under way. The flag says that one
of them is under way as long as none completes while another is, and as long as no loop over files
turns the flag off midway.
-/

namespace TekkGram

open Interaction Async

/-- Operations under way on one device. -/
abbrev AppPool := Pool World (Fallible Exc Ans) (Except Exc Unit × Unit)

/-- A move of one operation. -/
abbrev AppMove := Move (Fallible Exc Ans)

/-- Operations that have not started yet. -/
def Operation.pool (w : World) (ops : List Operation) : AppPool := ⟨w, ops.map Operation.program⟩

/-- An operation has started, which means that it has turned its flag on, and has not completed. It
does the former before it awaits anything. -/
def UnderWay (ops : List Operation) (moves : List AppMove) (P : AppPool) (i : Nat) : Prop :=
  ∃ op, ops[i]? = some op ∧
    (∃ e ∈ eventsOf i moves, e.call.setsFlag = some (op.flag, true)) ∧
    ∀ b, P.threads[i]? ≠ some (.done b)

/-- An operation completes with this move. -/
def Completes (P : AppPool) (m : AppMove) : Prop :=
  ∃ next b, P.threads[m.thread]? = some (.call m.event.call next) ∧ next m.event.reply = .done b

/-- The files of an operation on several files have thumbnails, and an operation completes only when
no other operation of the same notifier is under way. -/
structure OneAtATime (ops : List Operation) (moves : List AppMove) (P : AppPool) (m : AppMove) :
    Prop where
  readable : ∀ op, ops[m.thread]? = some op → op.Readable m.event
  alone : Completes P m → ∀ i op op', i ≠ m.thread → ops[i]? = some op →
    ops[m.thread]? = some op' → op.flag = op'.flag → ¬ UnderWay ops moves P i

/-- What holds along an interleaving: the rest of every operation turns its flag off with its last
call only, and the flags of the operations under way are on. -/
structure FlagInvariant (ops : List Operation) (moves : List AppMove) (P : AppPool) : Prop where
  length : P.threads.length = ops.length
  closes : ∀ (i : Nat) (op : Operation), ops[i]? = some op → ∃ p, P.threads[i]? = some p ∧
    p.Closes op.Readable (Call.KeepsFlag op.flag) (Call.TurnsOff op.flag) fun _ => True
  on : ∀ (i : Nat) (op : Operation), ops[i]? = some op → UnderWay ops moves P i →
    P.state.flag op.flag = true

section Steps

variable {ops : List Operation} {moves : List AppMove} {w w' : World}
  {threads : List (Program (Fallible Exc Ans) (Except Exc Unit × Unit))} {k : Nat} {c : Call}
  {next : Fallible Exc Ans c → Program (Fallible Exc Ans) (Except Exc Unit × Unit)}
  {r : Fallible Exc Ans c}

theorem FlagInvariant.init (w : World) (ops : List Operation) :
    FlagInvariant ops [] (Operation.pool w ops) where
  length := List.length_map ..
  closes i op hop := ⟨op.program, by rw [Operation.pool, List.getElem?_map, hop, Option.map_some],
    op.closes⟩
  on i op _ := by
    rintro ⟨op', -, ⟨e, he, -⟩, -⟩
    cases he

/-- A move of another operation does not change whether an operation is under way. -/
theorem UnderWay.of_ne {i : Nat} (hne : k ≠ i)
    (h : UnderWay ops (moves ++ [⟨k, ⟨c, r⟩⟩]) ⟨w', threads.set k (next r)⟩ i) :
    UnderWay ops moves ⟨w, threads⟩ i := by
  obtain ⟨op, hop, ⟨e, he, hon⟩, hrunning⟩ := h
  refine ⟨op, hop, ⟨e, ?_, hon⟩, fun b => ?_⟩
  · simpa [eventsOf_append, eventsOf, hne] using he
  · simpa [List.getElem?_set_ne hne] using hrunning b

/-- An operation that is under way after its own move was so before, or has turned its flag on. -/
theorem UnderWay.of_self {op : Operation} (hop : ops[k]? = some op)
    (hthread : threads[k]? = some (.call c next))
    (h : UnderWay ops (moves ++ [⟨k, ⟨c, r⟩⟩]) ⟨w', threads.set k (next r)⟩ k) :
    UnderWay ops moves ⟨w, threads⟩ k ∨ c.setsFlag = some (op.flag, true) := by
  obtain ⟨op', hop', ⟨e, he, hon⟩, -⟩ := h
  obtain rfl : op = op' := Option.some.inj (hop.symm.trans hop')
  rw [eventsOf_append, List.mem_append] at he
  rcases he with he | he
  · refine .inl ⟨op, hop, ⟨e, he, hon⟩, fun b hdone => ?_⟩
    cases hthread.symm.trans hdone
  · simp only [eventsOf, List.filterMap_cons, ite_true, List.filterMap_nil,
      List.mem_singleton] at he
    rw [he] at hon
    exact .inr hon

/-- One move that meets the guard keeps the invariant. -/
theorem FlagInvariant.step (hi : FlagInvariant ops moves ⟨w, threads⟩)
    (hguard : OneAtATime ops moves ⟨w, threads⟩ ⟨k, ⟨c, r⟩⟩)
    (hthread : threads[k]? = some (.call c next)) (haccept : World.step w c r = some w') :
    FlagInvariant ops (moves ++ [⟨k, ⟨c, r⟩⟩]) ⟨w', threads.set k (next r)⟩ := by
  have hlt : k < threads.length := (List.getElem?_eq_some_iff.mp hthread).1
  obtain ⟨op, hop⟩ : ∃ op, ops[k]? = some op :=
    ⟨_, List.getElem?_eq_getElem (hi.length ▸ hlt)⟩
  obtain ⟨p, hp, hcloses⟩ := hi.closes k op hop
  obtain rfl : p = .call c next := Option.some.inj (hp.symm.trans hthread)
  obtain ⟨hcall, hrest⟩ := hcloses
  refine ⟨by simpa using hi.length, fun i op' hop' => ?_, fun i op' hop' hway => ?_⟩
  · by_cases hki : k = i
    · subst hki
      obtain rfl : op = op' := Option.some.inj (hop.symm.trans hop')
      exact ⟨next r, List.getElem?_set_self hlt, hrest r (hguard.readable op hop)⟩
    · obtain ⟨p', hp', hcloses'⟩ := hi.closes i op' hop'
      exact ⟨p', by rw [List.getElem?_set_ne hki]; exact hp', hcloses'⟩
  · by_cases hki : k = i
    · subst hki
      obtain rfl : op = op' := Option.some.inj (hop.symm.trans hop')
      have hrunning : ∀ b, next r ≠ .done b := by
        intro b hdone
        obtain ⟨-, -, -, hnot⟩ := hway
        exact hnot b (by rw [List.getElem?_set_self hlt, hdone])
      rcases hcall with (hnone | hon) | ⟨-, hlast⟩
      · have hbefore := (hway.of_self (w := w) hop hthread).resolve_right (by rw [hnone]; nofun)
        rw [World.flag_of_not_sets haccept hnone]
        exact hi.on k op hop hbefore
      · rw [World.flag_of_sets haccept hon, if_pos rfl]
      · obtain ⟨b, -, hdone⟩ := hlast r
        exact absurd hdone (hrunning b)
    · have hbefore : UnderWay ops moves ⟨w, threads⟩ i := hway.of_ne hki
      have hflag := hi.on i op' hop' hbefore
      rcases hcall with (hnone | hon) | ⟨hoff, hlast⟩
      · rw [World.flag_of_not_sets haccept hnone]
        exact hflag
      · rw [World.flag_of_sets haccept hon]
        split
        · rfl
        · exact hflag
      · obtain ⟨b, -, hdone⟩ := hlast r
        have hne : op.flag ≠ op'.flag := fun hsame =>
          hguard.alone ⟨next, b, hthread, hdone⟩ i op' op (Ne.symm hki) hop' hop hsame.symm hbefore
        rw [World.flag_of_sets haccept hoff, if_neg hne]
        exact hflag

end Steps

/-- Operations of all notifiers, interleaved in any order: the provider is on as long as one of them
is under way. -/
theorem isLoading_of_steps (ops : List Operation) {w : World} {moves : List AppMove} {P : AppPool}
    (h : Pool.Steps World.step (OneAtATime ops) (Operation.pool w ops) moves P)
    (hway : ∃ i, UnderWay ops moves P i) : isLoadingProvider P.state = true := by
  have hinv : FlagInvariant ops moves P := by
    refine h.invariant (FlagInvariant ops) (.init w ops) ?_
    intro moves P m P' hi hguard hstep
    cases hstep with
    | mk hthread haccept => exact hi.step hguard hthread haccept
  obtain ⟨i, op, hop, hrunning⟩ := hway
  exact isLoadingProvider_of_flag (hinv.on i op hop ⟨op, hop, hrunning⟩)

/-- The test for an operation that has started and not completed. -/
def underWay (ops : List Operation) (moves : List AppMove) (P : AppPool) (i : Nat) : Bool :=
  ops[i]?.any fun op =>
    (eventsOf i moves).any (fun e => e.call.setsFlag = some (op.flag, true)) &&
      P.threads[i]?.all fun p => !p.isDone

theorem underWay_iff {ops : List Operation} {moves : List AppMove} {P : AppPool} {i : Nat}
    (h : underWay ops moves P i = true) : UnderWay ops moves P i := by
  obtain ⟨op, hop, htest⟩ := (Option.any_eq_true _ _).mp h
  obtain ⟨hon, hrunning⟩ := (Bool.and_eq_true _ _).mp htest
  obtain ⟨e, he, hsets⟩ := List.any_eq_true.mp hon
  refine ⟨op, hop, ⟨e, he, of_decide_eq_true hsets⟩, fun b hdone => ?_⟩
  rw [hdone] at hrunning
  cases hrunning

/-- Operations of different notifiers are not in each other's way. -/
theorem OneAtATime.of_nodup {ops : List Operation} (hnodup : (ops.map Operation.flag).Nodup)
    {moves : List AppMove} {P : AppPool} {m : AppMove}
    (hread : ∀ op, ops[m.thread]? = some op → op.Readable m.event) :
    OneAtATime ops moves P m := by
  refine ⟨hread, fun _ i op op' hne hop hop' hsame => absurd ?_ hne⟩
  have hflag : (ops.map Operation.flag)[i]? = some op.flag := by
    rw [List.getElem?_map, hop, Option.map_some]
  have hflag' : (ops.map Operation.flag)[m.thread]? = some op'.flag := by
    rw [List.getElem?_map, hop', Option.map_some]
  refine (List.getElem?_inj (List.getElem?_eq_some_iff.mp hflag).1 hnodup).mp ?_
  rw [hflag, hflag', hsame]

/-- The test for a file without a thumbnail. -/
def noThumbnail : (c : Call) → Ans c → Bool
  | .decodeImage _, image => image.isNone
  | .thumbnailData _ _ _, thumb => thumb.isNone
  | _, _ => false

theorem noThumbnail_iff (c : Call) (a : Ans c) : noThumbnail c a = true ↔ NoThumbnail c a := by
  cases c <;> simp [noThumbnail]

instance (c : Call) (a : Ans c) : Decidable (NoThumbnail c a) :=
  decidable_of_iff _ (noThumbnail_iff c a)

/-- Two operations on different notifiers that read no file. -/
def quietOperations : List Operation :=
  [.sendComment "u" "p" "hello" "" "", .deleteComment "c"]

/-- A comment is sent while another one is being deleted. -/
theorem isLoading_of_steps_two_notifiers : ∃ moves P,
    Pool.Steps World.step (OneAtATime quietOperations)
      (Operation.pool World.initial quietOperations) moves P ∧
    UnderWay quietOperations moves P 1 ∧ isLoadingProvider P.state = true := by
  have hexec : (Pool.exec World.step World.working (fun _ m => ¬ Returned NoThumbnail [m.event])
      [0, 1, 0, 0] [] (Operation.pool World.initial quietOperations)).any
        (fun r => underWay quietOperations r.1 r.2 1) = true := by decide +kernel
  have hcheck : ∀ (moves : List AppMove) (P : AppPool) (m : AppMove),
      decide (¬ Returned NoThumbnail [m.event]) = true → OneAtATime quietOperations moves P m := by
    refine fun moves P m hm => .of_nodup (by decide) fun op _ => ?_
    unfold Operation.Readable
    split
    · trivial
    · exact of_decide_eq_true hm
  obtain ⟨moves, P, hsteps, hway⟩ := Pool.exec_any hcheck hexec
  exact ⟨moves, P, hsteps, underWay_iff hway,
    isLoading_of_steps quietOperations hsteps ⟨1, underWay_iff hway⟩⟩

/-- A picture that cannot be decoded turns the flag off while its upload goes on. -/
theorem not_isLoading_of_undecodable :
    ¬ ∀ (ops : List Operation) (w : World) (moves : List AppMove) (P : AppPool),
      Pool.Steps World.step (fun _ _ _ => True) (Operation.pool w ops) moves P →
      (∃ i, UnderWay ops moves P i) → isLoadingProvider P.state = true := by
  intro hall
  have hexec : (Pool.exec World.step World.undecodable (fun _ _ => true) [0, 0, 0, 0] []
      (Operation.pool World.initial [.post (.uploadMultipleImageFiles [⟨"a.jpg"⟩, ⟨"b.jpg"⟩] none
        (some []) .image "u")])).any (fun r =>
        underWay [.post (.uploadMultipleImageFiles [⟨"a.jpg"⟩, ⟨"b.jpg"⟩] none (some []) .image
          "u")] r.1 r.2 0 && !isLoadingProvider r.2.state) = true := by decide +kernel
  obtain ⟨moves, P, hsteps, htest⟩ := Pool.exec_any (fun _ _ _ _ => trivial) hexec
  obtain ⟨hway, hoff⟩ := (Bool.and_eq_true _ _).mp htest
  have hon := hall _ _ moves P hsteps ⟨0, underWay_iff hway⟩
  rw [hon] at hoff
  cases hoff

end TekkGram
